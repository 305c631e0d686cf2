import ActionAtlas.Proofs.Attribution

/-!
# The field that makes a class an action

A class is taken for an action by its first field. That field is looked for everywhere below the class,
also in classes that stand inside of it; so it need not be a field of the class's own body.
-/

namespace ActionAtlas

open Syntax

/-! ## Results in order -/

/-- What the members of a list are related to, in order. A member that is related to nothing is left
out. -/
inductive Picks {α β : Type} (related : α → β → Prop) : List α → List β → Prop
  | nil : Picks related [] []
  | take {a : α} {b : β} {as : List α} {bs : List β} (h : related a b) (rest : Picks related as bs) :
      Picks related (a :: as) (b :: bs)
  | skip {a : α} {as : List α} {bs : List β} (h : ∀ b, ¬ related a b) (rest : Picks related as bs) :
      Picks related (a :: as) bs

namespace Picks

variable {α β : Type} {related other : α → β → Prop} {as : List α} {bs : List β}

theorem of_filterMap {f : α → Option β} (h : ∀ a b, f a = some b ↔ related a b) (as : List α) :
    Picks related as (as.filterMap f) := by
  induction as with
  | nil => exact .nil
  | cons a rest ih =>
      cases hfound : f a with
      | none =>
          rw [List.filterMap_cons_none hfound]
          refine .skip (fun b hb => ?_) ih
          rw [← h, hfound] at hb
          cases hb
      | some b =>
          rw [List.filterMap_cons_some hfound]
          exact .take ((h a b).mp hfound) ih

theorem congr (picks : Picks related as bs) (same : ∀ a ∈ as, ∀ b, related a b ↔ other a b) :
    Picks other as bs := by
  induction picks with
  | nil => exact .nil
  | @take a b as bs h _ ih =>
      have hfirst := same a List.mem_cons_self b
      exact .take (hfirst.mp h) (ih fun a ha => same a (List.mem_cons_of_mem _ ha))
  | @skip a as bs h _ ih =>
      have hfirst := same a List.mem_cons_self
      exact .skip (fun b hb => h b ((hfirst b).mpr hb))
        (ih fun a ha => same a (List.mem_cons_of_mem _ ha))

theorem exists_of_mem (picks : Picks related as bs) {b : β} (hb : b ∈ bs) :
    ∃ a ∈ as, related a b := by
  induction picks with
  | nil => cases hb
  | @take a b' as bs h _ ih =>
      rcases List.mem_cons.mp hb with rfl | hrest
      · exact ⟨a, List.mem_cons_self, h⟩
      · obtain ⟨source, hsource, hrelated⟩ := ih hrest
        exact ⟨source, List.mem_cons_of_mem _ hsource, hrelated⟩
  | skip _ _ ih =>
      obtain ⟨source, hsource, hrelated⟩ := ih hb
      exact ⟨source, List.mem_cons_of_mem _ hsource, hrelated⟩

theorem exists_mem (picks : Picks related as bs) {a : α} {b : β} (ha : a ∈ as) (h : related a b) :
    ∃ found ∈ bs, related a found := by
  induction picks with
  | nil => cases ha
  | @take a' b' as bs hfirst _ ih =>
      rcases List.mem_cons.mp ha with rfl | hrest
      · exact ⟨b', List.mem_cons_self, hfirst⟩
      · obtain ⟨found, hfound, hrelated⟩ := ih hrest
        exact ⟨found, List.mem_cons_of_mem _ hfound, hrelated⟩
  | skip hnone _ ih =>
      rcases List.mem_cons.mp ha with rfl | hrest
      · exact absurd h (hnone b)
      · exact ih hrest

end Picks

/-! ## Fields of a class -/

/-- The first field below a class, whichever class it stands in. -/
def firstField? (tree : Tree) (cls : Nat) : Option Nat :=
  (tree.descendants cls .propertyDeclaration).head?

/-- The first field of a class's own body: the innermost class around it is the class itself. -/
def ownField? (tree : Tree) (cls : Nat) : Option Nat :=
  (tree.descendants cls .propertyDeclaration).find? fun field =>
    tree.nearest? field .classDeclaration == some cls

def ChoosesFields (fieldOf : Tree → Nat → Option Nat) : Prop :=
  ∀ tree cls field, fieldOf tree cls = some field → tree.kind field = .propertyDeclaration

theorem firstField?_choosesFields : ChoosesFields firstField? :=
  fun _ _ _ h => Tree.kind_of_mem_descendants (List.mem_of_mem_head? h)

theorem ownField?_choosesFields : ChoosesFields ownField? :=
  fun _ _ _ h => Tree.kind_of_mem_descendants (List.mem_of_find?_eq_some h)

namespace Discovery

def candidates (trees : List Tree) (filters : PathFilters) : List (Tree × Nat) :=
  (trees.filter fun tree => filters.isActionsFile tree.filePath).flatMap fun tree =>
    (tree.childrenOfKind Tree.root .classDeclaration).map fun cls => (tree, cls)

/-- The action of a class, where `fieldOf` says which field makes it one. -/
def Declares (fieldOf : Tree → Nat → Option Nat) (typeOf : TypeOracle) (place : Tree × Nat)
    (action : Action) : Prop :=
  ∃ field, fieldOf place.1 place.2 = some field ∧ action.DeclaredBy typeOf place.1 place.2 field

theorem mem_candidates {trees : List Tree} {filters : PathFilters} {place : Tree × Nat} :
    place ∈ candidates trees filters ↔
      (place.1 ∈ trees ∧ filters.isActionsFile place.1.filePath = true) ∧
        place.2 ∈ place.1.childrenOfKind Tree.root .classDeclaration := by
  obtain ⟨tree, cls⟩ := place
  simp [candidates]

theorem kind_of_mem_candidates {trees : List Tree} {filters : PathFilters} {place : Tree × Nat}
    (h : place ∈ candidates trees filters) : place.1.kind place.2 = .classDeclaration :=
  beq_iff_eq.mp (List.mem_filter.mp (mem_candidates.mp h).2).2

theorem actionsOf_eq_filterMap (typeOf : TypeOracle) (tree : Tree) :
    actionsOf typeOf tree = (tree.childrenOfKind Tree.root .classDeclaration).filterMap fun cls =>
      (inspectClass typeOf tree cls).toOption.join := by
  unfold actionsOf
  congr 1
  funext cls
  cases inspectClass typeOf tree cls <;> rfl

theorem run_actions_eq_filterMap (trees : List Tree) (typeOf : TypeOracle) (filters : PathFilters) :
    (run trees typeOf filters).actions =
      (candidates trees filters).filterMap fun place =>
        (inspectClass typeOf place.1 place.2).toOption.join := by
  rw [run_actions, candidates, List.filterMap_flatMap]
  congr 1
  funext tree
  rw [actionsOf_eq_filterMap, List.filterMap_map]
  rfl

theorem run_picks_firstField (trees : List Tree) (typeOf : TypeOracle) (filters : PathFilters) :
    Picks (Declares firstField? typeOf) (candidates trees filters) (run trees typeOf filters).actions := by
  rw [run_actions_eq_filterMap]
  refine Picks.of_filterMap (fun place action => ?_) _
  unfold Declares firstField?
  rw [← Tree.firstDescendant?_eq_head?, ← inspectClass_eq_ok_some_iff]
  cases inspectClass typeOf place.1 place.2 <;> simp [Except.toOption]

/-- Two choices that make the same actions whatever the types are choose the same fields among those
that tell actions apart. -/
theorem chosen_of_picks {places : List (Tree × Nat)} {chosen other : Tree → Nat → Option Nat}
    (hchosen : ChoosesFields chosen) (hother : ChoosesFields other)
    (hclasses : ∀ place ∈ places, place.1.kind place.2 = .classDeclaration)
    (h : ∀ typeOf, ∃ actions, Picks (Declares chosen typeOf) places actions ∧
      Picks (Declares other typeOf) places actions)
    {place : Tree × Nat} (hplace : place ∈ places) {field : Nat}
    (hdiscriminant : IsDiscriminant place.1 field) (hfield : chosen place.1 place.2 = some field) :
    other place.1 place.2 = some field := by
  classical
  obtain ⟨tree, cls⟩ := place
  -- with types for the class and the field only, nothing but this field can make an action
  let typeOf : TypeOracle := fun t pos =>
    if t = tree ∧ (pos = cls ∨ pos = field) then .ok "" else .error (.unsupported .other)
  have hknown : ∀ {t pos type}, typeOf t pos = .ok type → t = tree ∧ (pos = cls ∨ pos = field) := by
    intro t pos type htype
    by_contra hunknown
    simp only [typeOf, if_neg hunknown] at htype
    cases htype
  have hclass : tree.kind cls = .classDeclaration := hclasses _ hplace
  have hproperty : tree.kind field = .propertyDeclaration := hchosen _ _ _ hfield
  have hnarrow : "" ≠ anyString := by decide
  have hdeclares : Declares chosen typeOf (tree, cls)
      { name := Action.displayName "", filePath := tree.filePath, line := tree.line cls
        classType := "", fieldType := "" } :=
    ⟨field, hfield, by simp [typeOf], by simp [typeOf], hnarrow, hdiscriminant, rfl, rfl, rfl, rfl⟩
  obtain ⟨actions, hpicks, hotherPicks⟩ := h typeOf
  obtain ⟨action, haction, _⟩ := hpicks.exists_mem hplace hdeclares
  obtain ⟨⟨otherTree, otherCls⟩, hotherPlace, otherField, hotherField, declared⟩ :=
    hotherPicks.exists_of_mem haction
  have hotherClass : otherTree.kind otherCls = .classDeclaration := hclasses _ hotherPlace
  have hotherProperty : otherTree.kind otherField = .propertyDeclaration := hother _ _ _ hotherField
  obtain ⟨rfl, rfl | rfl⟩ := hknown declared.classType
  · obtain ⟨-, rfl | rfl⟩ := hknown declared.fieldType
    · rw [hotherClass] at hotherProperty
      cases hotherProperty
    · exact hotherField
  · rw [hotherClass] at hproperty
    cases hproperty

/-- The actions found are those of the candidates, in order, where the first field anywhere below a
class makes it one. Whatever the types are, the first fields of the classes' own bodies make the same
actions just when the two choices agree on the fields that tell actions apart. -/
theorem run_actions_by_field (trees : List Tree) (filters : PathFilters) :
    (∀ typeOf, Picks (Declares firstField? typeOf) (candidates trees filters)
      (run trees typeOf filters).actions) ∧
    ((∀ typeOf, Picks (Declares ownField? typeOf) (candidates trees filters)
        (run trees typeOf filters).actions) ↔
      ∀ place ∈ candidates trees filters, ∀ field, IsDiscriminant place.1 field →
        (firstField? place.1 place.2 = some field ↔ ownField? place.1 place.2 = some field)) := by
  have hfirst := fun typeOf => run_picks_firstField trees typeOf filters
  have hclasses : ∀ place ∈ candidates trees filters, place.1.kind place.2 = .classDeclaration :=
    fun _ => kind_of_mem_candidates
  refine ⟨hfirst, ?_⟩
  constructor
  · intro hown place hplace field hdiscriminant
    constructor
    · exact chosen_of_picks firstField?_choosesFields ownField?_choosesFields hclasses
        (fun typeOf => ⟨_, hfirst typeOf, hown typeOf⟩) hplace hdiscriminant
    · exact chosen_of_picks ownField?_choosesFields firstField?_choosesFields hclasses
        (fun typeOf => ⟨_, hown typeOf, hfirst typeOf⟩) hplace hdiscriminant
  · intro hagree typeOf
    refine (hfirst typeOf).congr fun place hplace action => ?_
    refine exists_congr fun field => and_congr_left fun declared => ?_
    exact hagree place hplace field declared.discriminant

/-- A class without a field is an action by the field of a class inside of one of its methods. -/
theorem run_actions_of_nested_class :
    let tree := Tree.ofSteps "a.actions.ts"
      "class Outer \x7b make() \x7b class Inner \x7b readonly type = 'x'; \x7d \x7d \x7d"
      [.enter .classDeclaration ⟨0, 63⟩, .leaf .identifier ⟨6, 11⟩, .enter .other ⟨12, 63⟩,
        .enter .methodDeclaration ⟨14, 61⟩, .leaf .identifier ⟨14, 18⟩, .enter .other ⟨18, 61⟩,
        .leaf .other ⟨18, 20⟩, .enter .other ⟨21, 61⟩, .enter .classDeclaration ⟨23, 59⟩,
        .leaf .identifier ⟨29, 34⟩, .enter .other ⟨35, 59⟩, .enter .propertyDeclaration ⟨37, 57⟩,
        .hint 12 "\"x\"", .leaf .identifier ⟨46, 50⟩, .leaf .other ⟨53, 56⟩, .leave, .leave, .leave,
        .leave, .leave, .leave, .leave, .leave]
    let typeOf := (Declarations.ofTrees [tree]).typeOf
    (run [tree] typeOf {}).actions.map (fun action => (action.classType, action.fieldType)) =
      [("Outer", "\"x\"")] ∧
    ownField? tree 1 = none ∧
    ¬ Picks (Declares ownField? typeOf) (candidates [tree] {}) (run [tree] typeOf {}).actions := by
  intro tree typeOf
  have hfound : (run [tree] typeOf {}).actions.map (fun action => (action.classType, action.fieldType)) =
      [("Outer", "\"x\"")] := by decide +kernel
  have hown : ownField? tree 1 = none := by decide +kernel
  have htop : tree.childrenOfKind Tree.root .classDeclaration = [1] := by decide +kernel
  refine ⟨hfound, hown, fun hpicks => ?_⟩
  obtain ⟨action, haction⟩ : ∃ action, action ∈ (run [tree] typeOf {}).actions := by
    refine List.exists_mem_of_ne_nil _ fun hnone => ?_
    rw [hnone] at hfound
    cases hfound
  obtain ⟨place, hplace, field, hfield, _⟩ := hpicks.exists_of_mem haction
  obtain ⟨⟨htree, _⟩, hclass⟩ := mem_candidates.mp hplace
  rw [List.mem_singleton.mp htree, htop] at hclass
  rw [List.mem_singleton.mp htree, List.mem_singleton.mp hclass, hown] at hfield
  cases hfield

end Discovery
end ActionAtlas
