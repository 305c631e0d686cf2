import ActionAtlas.Proofs.Attribution
import ActionAtlas.Proofs.EntryOrder

/-!
# Files in another order

A type that two actions have goes to the last of them, so the order of the files can move references
from one action to another. It cannot as long as actions with a type in common are equal: then the
places with a type of an action all belong to the last action that is equal to it, wherever that one
stands. What the files declare does not depend on their order at all.
-/

namespace ActionAtlas

open Syntax

variable {trees reordered : List Tree}

/-! ## Declarations -/

namespace Declarations

theorem typeOf_congr {declared other : Declarations}
    (hclass : ∀ name, declared.isClass name = other.isClass name)
    (henum : ∀ name, declared.isEnum name = other.isEnum name) : declared.typeOf = other.typeOf := by
  have hmember : ∀ tree pos, declared.enumMember? tree pos = other.enumMember? tree pos := by
    intro tree pos
    simp only [enumMember?, henum]
  have hidentifier : ∀ tree pos, declared.identifierType tree pos = other.identifierType tree pos := by
    intro tree pos
    simp only [identifierType, hmember, hclass, henum]
  funext tree pos
  simp only [typeOf, hidentifier]

theorem typeOf_ofTrees_perm (perm : reordered.Perm trees) :
    (ofTrees reordered).typeOf = (ofTrees trees).typeOf := by
  refine typeOf_congr (fun name => ?_) (fun name => ?_)
  · exact (perm.flatMap_right _).contains_eq
  · exact (perm.flatMap_right _).contains_eq

end Declarations

/-! ## Places with a type of an action -/

namespace Action

def SharesType (action other : Action) : Prop :=
  action.HasType other.classType ∨ action.HasType other.fieldType

instance (action other : Action) : Decidable (action.SharesType other) :=
  inferInstanceAs (Decidable (_ ∨ _))

theorem HasType.sharesType {action other : Action} {type : String} (h : action.HasType type)
    (hother : other.HasType type) : action.SharesType other := by
  rcases hother with rfl | rfl
  · exact Or.inl h
  · exact Or.inr h

/-- Actions that have a type in common are equal. -/
def Separate (actions : List Action) : Prop :=
  ∀ action ∈ actions, ∀ other ∈ actions, action.SharesType other → action = other

instance (actions : List Action) : Decidable (Separate actions) :=
  inferInstanceAs (Decidable (∀ action ∈ actions, ∀ other ∈ actions, _))

def isMeantAt (action : Action) (typeOf : TypeOracle) (tree : Tree) (pos : Nat) : Bool :=
  match typeOf tree pos with
  | .ok type => decide (action.HasType (stripTypeof type))
  | .error _ => false

def placesIn (action : Action) (trees : List Tree) (typeOf : TypeOracle) (filters : PathFilters) :
    List ReferenceEntry :=
  (trees.filter fun tree => !filters.isExcluded tree.filePath).flatMap fun tree =>
    ((tree.descendants Tree.root .identifier).filter (action.isMeantAt typeOf tree)).map tree.placeAt

theorem placesIn_perm (perm : reordered.Perm trees) (action : Action) (typeOf : TypeOracle)
    (filters : PathFilters) :
    (action.placesIn reordered typeOf filters).Perm (action.placesIn trees typeOf filters) :=
  (perm.filter _).flatMap_right _

end Action

section Owner

variable {table : ActionTable} {actions : List Action} {typeOf : TypeOracle} {index : Nat}
  {action : Action}

/-- The places with a type of an action belong to the last action that is equal to it. -/
theorem owner?_eq_some_iff (hlast : table.PointsToLast actions) (separate : Action.Separate actions)
    (hindex : actions[index]? = some action) (tree : Tree) (pos : Nat) :
    table.owner? typeOf tree pos = some index ↔
      action ∉ actions.drop (index + 1) ∧ action.isMeantAt typeOf tree pos = true := by
  unfold ActionTable.owner? Action.isMeantAt
  cases typeOf tree pos with
  | error error => simp
  | ok type =>
      simp only [decide_eq_true_eq]
      rw [hlast]
      constructor
      · rintro ⟨⟨found, hfound, hhas⟩, hbound⟩
        obtain rfl : action = found := Option.some.inj (hindex.symm.trans hfound)
        refine ⟨fun hagain => ?_, hhas⟩
        obtain ⟨later, hlater⟩ := List.mem_iff_getElem?.mp hagain
        rw [List.getElem?_drop] at hlater
        have hle := hbound _ action hlater hhas
        omega
      · rintro ⟨hgone, hhas⟩
        refine ⟨⟨action, hindex, hhas⟩, fun later other hlater hother => ?_⟩
        have hsame : action = other :=
          separate action (List.mem_of_getElem? hindex) other (List.mem_of_getElem? hlater)
            (hhas.sharesType hother)
        refine Nat.le_of_not_lt fun hlt => hgone ?_
        refine List.mem_iff_getElem?.mpr ⟨later - (index + 1), ?_⟩
        rw [List.getElem?_drop, Nat.add_sub_cancel' hlt, hlater, hsame]

theorem Discovery.placesTo_eq {found : Discovery} (hlast : found.table.PointsToLast found.actions)
    (separate : Action.Separate found.actions) (hindex : found.actions[index]? = some action)
    (filters : PathFilters) :
    found.placesTo trees typeOf filters index =
      if action ∈ found.actions.drop (index + 1) then []
      else action.placesIn trees typeOf filters := by
  have howner : ∀ tree pos, (found.table.owner? typeOf tree pos == some index) =
      (decide (action ∉ found.actions.drop (index + 1)) && action.isMeantAt typeOf tree pos) := by
    intro tree pos
    rw [Bool.eq_iff_iff, beq_iff_eq, owner?_eq_some_iff hlast separate hindex, Bool.and_eq_true,
      decide_eq_true_eq]
  simp only [Discovery.placesTo, howner]
  by_cases hagain : action ∈ found.actions.drop (index + 1)
  · simp [hagain]
  · simp [hagain, Action.placesIn]

end Owner

/-! ## The last of equal actions -/

namespace Action

/-- Give places to the last of equal actions and none to the others. -/
def giveToLast (places : Action → List ReferenceEntry) : List Action → List Action
  | [] => []
  | action :: rest =>
      { action with references := if action ∈ rest then [] else places action } ::
        giveToLast places rest

theorem giveToLast_getElem? (places : Action → List ReferenceEntry) (actions : List Action)
    (index : Nat) :
    (giveToLast places actions)[index]? = actions[index]?.map fun action =>
      { action with
        references := if action ∈ actions.drop (index + 1) then [] else places action } := by
  induction actions generalizing index with
  | nil => rfl
  | cons action rest ih =>
      cases index with
      | zero => rfl
      | succ index => simpa [giveToLast] using ih index

theorem giveToLast_perm (places : Action → List ReferenceEntry) {actions others : List Action}
    (perm : actions.Perm others) :
    (giveToLast places actions).Perm (giveToLast places others) := by
  induction perm with
  | nil => exact .refl _
  | cons action perm ih =>
      simp only [giveToLast, perm.mem_iff]
      exact ih.cons _
  | swap action other rest =>
      -- of two neighbours that differ, neither is what the other one waits for
      by_cases hsame : action = other
      · rw [hsame]
      · simp only [giveToLast, List.mem_cons, hsame, Ne.symm hsame, false_or]
        exact .swap _ _ _
  | trans _ _ ih ih' => exact ih.trans ih'

/-- The same action with the same references, maybe in another order. -/
structure Agrees (action other : Action) : Prop where
  name : action.name = other.name
  filePath : action.filePath = other.filePath
  line : action.line = other.line
  classType : action.classType = other.classType
  fieldType : action.fieldType = other.fieldType
  references : action.references.Perm other.references

theorem Agrees.symm {action other : Action} (h : action.Agrees other) : other.Agrees action :=
  ⟨h.name.symm, h.filePath.symm, h.line.symm, h.classType.symm, h.fieldType.symm, h.references.symm⟩

theorem exists_agreeing {actions others : List Action} (h : List.Forall₂ Agrees actions others) :
    (∀ action ∈ actions, ∃ other ∈ others, action.Agrees other) ∧
    ∀ other ∈ others, ∃ action ∈ actions, other.Agrees action := by
  refine ⟨fun action haction => exists_partner h haction, ?_⟩
  intro other hother
  obtain ⟨action, haction, hagrees⟩ := exists_partner h.flip hother
  exact ⟨action, haction, Agrees.symm hagrees⟩

theorem giveToLast_agrees {places others : Action → List ReferenceEntry}
    (h : ∀ action, (places action).Perm (others action)) (actions : List Action) :
    List.Forall₂ Agrees (giveToLast places actions) (giveToLast others actions) := by
  induction actions with
  | nil => exact .nil
  | cons action rest ih =>
      refine .cons ⟨rfl, rfl, rfl, rfl, rfl, ?_⟩ ih
      by_cases hagain : action ∈ rest
      · simp [hagain]
      · simpa [hagain] using h action

end Action

theorem analyzeTrees_eq_giveToLast {typeOf : TypeOracle} {filters : PathFilters}
    (separate : Action.Separate (Discovery.run trees typeOf filters).actions) :
    analyzeTrees trees typeOf filters =
      Action.giveToLast (·.placesIn trees typeOf filters)
        (Discovery.run trees typeOf filters).actions := by
  refine List.ext_getElem? fun index => ?_
  rw [Action.giveToLast_getElem?]
  cases hindex : (Discovery.run trees typeOf filters).actions[index]? with
  | none =>
      rw [analyzeTrees, Discovery.aggregate_getElem?, hindex]
      rfl
  | some action =>
      refine (Discovery.aggregate_run_getElem? trees filters hindex).trans ?_
      rw [Discovery.placesTo_eq (Discovery.run_pointsToLast trees typeOf filters) separate hindex]
      rfl

/-! ## Reordering -/

theorem Action.Separate.of_perm {actions others : List Action} (separate : Action.Separate others)
    (perm : actions.Perm others) : Action.Separate actions :=
  fun action haction other hother =>
    separate action (perm.mem_iff.mp haction) other (perm.mem_iff.mp hother)

theorem Discovery.run_actions_perm (perm : reordered.Perm trees) (typeOf : TypeOracle)
    (filters : PathFilters) :
    (run reordered typeOf filters).actions.Perm (run trees typeOf filters).actions := by
  rw [run_actions, run_actions]
  exact (perm.filter _).flatMap_right _

theorem exportActions_saidBy (filters : PathFilters) (keepEmpty : Bool) {actions others : List Action}
    (h : ∀ action ∈ actions, ∃ other ∈ others, action.Agrees other) :
    ActionEntry.SaidBy (exportActions filters keepEmpty actions)
      (exportActions filters keepEmpty others) := by
  intro entry hentry
  obtain ⟨action, haction, rfl⟩ := List.mem_map.mp hentry
  obtain ⟨other, hother, hagrees⟩ := h action haction
  refine ⟨exportAction filters keepEmpty other, List.mem_map_of_mem hother, ?_, ?_⟩
  · simp only [ActionEntry.id, exportAction, hagrees.name, hagrees.filePath]
  · intro reference hreference
    exact (hagrees.references.filterMap _).mem_iff.mp hreference

theorem exportActions_resembles (filters : PathFilters) (keepEmpty : Bool) (depth : Nat)
    {actions matched others : List Action} (perm : matched.Perm others)
    (h : List.Forall₂ Action.Agrees actions matched) :
    (Graph.ofEntries depth (exportActions filters keepEmpty actions)).Resembles
      (Graph.ofEntries depth (exportActions filters keepEmpty others)) := by
  obtain ⟨hthere, hback⟩ := Action.exists_agreeing h
  refine Graph.ofEntries_resembles depth (exportActions_saidBy filters keepEmpty ?_)
    (exportActions_saidBy filters keepEmpty ?_)
  · intro action haction
    obtain ⟨other, hother, hagrees⟩ := hthere action haction
    exact ⟨other, perm.mem_iff.mp hother, hagrees⟩
  · intro action haction
    exact hback action (perm.mem_iff.mpr haction)

theorem exists_analyzeTrees_agrees (perm : reordered.Perm trees) {typeOf : TypeOracle}
    {filters : PathFilters}
    (separate : Action.Separate (Discovery.run trees typeOf filters).actions) :
    ∃ matched, matched.Perm (analyzeTrees trees typeOf filters) ∧
      List.Forall₂ Action.Agrees (analyzeTrees reordered typeOf filters) matched := by
  have hfound := Discovery.run_actions_perm perm typeOf filters
  rw [analyzeTrees_eq_giveToLast separate, analyzeTrees_eq_giveToLast (separate.of_perm hfound)]
  -- the places of the one order, given out to the actions in the other
  exact ⟨Action.giveToLast (·.placesIn trees typeOf filters) _, Action.giveToLast_perm _ hfound,
    Action.giveToLast_agrees (fun action => action.placesIn_perm perm typeOf filters) _⟩

/-- The order of the files does not matter as long as actions with a type in common are equal. The
same actions are found, each with the same references, though not in the same order; and the graph has
the same ids, kinds and links. -/
theorem analyzeTrees_reordered {trees reordered : List Tree} (filters : PathFilters)
    (perm : reordered.Perm trees)
    (separate : Action.Separate
      (Discovery.run trees (Declarations.ofTrees trees).typeOf filters).actions) :
    let before := analyzeTrees trees (Declarations.ofTrees trees).typeOf filters
    let after := analyzeTrees reordered (Declarations.ofTrees reordered).typeOf filters
    (∃ matched, matched.Perm before ∧ List.Forall₂ Action.Agrees after matched) ∧
    ∀ keepEmpty depth,
      (Graph.ofEntries depth (exportActions filters keepEmpty after)).Resembles
        (Graph.ofEntries depth (exportActions filters keepEmpty before)) := by
  rw [Declarations.typeOf_ofTrees_perm perm]
  intro before after
  obtain ⟨matched, hperm, hmatched⟩ := exists_analyzeTrees_agrees perm separate
  exact ⟨⟨matched, hperm, hmatched⟩,
    fun keepEmpty depth => exportActions_resembles filters keepEmpty depth hperm hmatched⟩

/-- Two files, of which one creates the action of the other. -/
theorem analyzeTrees_swapped :
    let add := Tree.ofSteps "a.ts" "class Add\x7btype='a';go()\x7bnew Drop\x7d\x7d"
      [.enter .classDeclaration ⟨0, 34⟩, .leaf .identifier ⟨6, 9⟩,
        .enter .propertyDeclaration ⟨10, 18⟩, .leaf .identifier ⟨10, 14⟩, .leave, .hint 3 "\"a\"",
        .enter .methodDeclaration ⟨19, 33⟩, .leaf .identifier ⟨19, 21⟩,
        .enter .newExpression ⟨24, 32⟩, .leaf .identifier ⟨28, 32⟩, .leave, .leave, .leave]
    let drop := Tree.ofSteps "b.ts" "class Drop\x7btype='b'\x7d"
      [.enter .classDeclaration ⟨0, 20⟩, .leaf .identifier ⟨6, 10⟩,
        .enter .propertyDeclaration ⟨11, 19⟩, .leaf .identifier ⟨11, 15⟩, .leave, .hint 3 "\"b\"",
        .leave]
    let before := analyzeTrees [add, drop] (Declarations.ofTrees [add, drop]).typeOf {}
    let after := analyzeTrees [drop, add] (Declarations.ofTrees [drop, add]).typeOf {}
    Action.Separate (Discovery.run [add, drop] (Declarations.ofTrees [add, drop]).typeOf {}).actions ∧
    before.map (fun action => (action.name, action.references.map (·.filePath))) =
      [("a", ["a.ts"]), ("b", ["a.ts", "b.ts"])] ∧
    after.map (fun action => (action.name, action.references.map (·.filePath))) =
      [("b", ["b.ts", "a.ts"]), ("a", ["a.ts"])] ∧
    (∃ matched, matched.Perm before ∧ List.Forall₂ Action.Agrees after matched) ∧
    (Graph.ofEntries 1 (exportActions {} true after)).Resembles
      (Graph.ofEntries 1 (exportActions {} true before)) := by
  intro add drop before after
  have separate : Action.Separate
      (Discovery.run [add, drop] (Declarations.ofTrees [add, drop]).typeOf {}).actions := by
    decide +kernel
  obtain ⟨hmatched, hgraph⟩ := analyzeTrees_reordered {} (.swap add drop []) separate
  exact ⟨separate, by decide +kernel, by decide +kernel, hmatched, hgraph true 1⟩

end ActionAtlas
