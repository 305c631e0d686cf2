import ActionAtlas.Proofs.Climbing
import ActionAtlas.Proofs.ExportedRoles

/-!
# Roles by what stands around a node

Instantiations and reducers are told by what stands around the whole chain of accesses that a node is
part of, effects by the innermost ancestor with a decorator below it. For effects and reducers the
search goes up to the node below the ancestor in question, and so misses an ancestor that is the parent.
A constructor and its class are looked for from the node, each on its own, and need not belong together.
-/

namespace ActionAtlas.Classification

open Syntax

variable {tree : Tree} {pos outer : Nat}

theorem exists_climbsTo_access_and (linked : tree.Linked) {p : Nat → Prop} :
    (∃ outer, tree.ClimbsTo .propertyAccess pos outer ∧ p outer) ↔ p (outermostAccess tree pos) := by
  simp only [linked.climbsTo_iff]
  exact exists_eq_left'

/-! ## Instantiations -/

/-- What is created: the first child of a creation. -/
def IsCallee (tree : Tree) (pos : Nat) : Prop :=
  ∃ made, tree.parent? pos = some made ∧ tree.kind made = .newExpression ∧
    (tree.children made).head? = some pos

def FollowsCallee (tree : Tree) (pos : Nat) : Prop :=
  ∃ made, tree.kind made = .newExpression ∧ pos ∈ (tree.children made).tail

theorem not_followsCallee_of_isCallee (linked : tree.Linked) (h : IsCallee tree pos) :
    ¬ FollowsCallee tree pos := by
  obtain ⟨made, hparent, _, hhead⟩ := h
  rintro ⟨other, _, htail⟩
  have hother : tree.parent? pos = some other := linked.mem_children.mp (List.mem_of_mem_tail htail)
  cases hparent.symm.trans hother
  have hsorted := linked.sorted made
  obtain ⟨rest, hchildren⟩ := List.head?_eq_some_iff.mp hhead
  rw [hchildren] at hsorted htail
  exact Nat.lt_irrefl pos ((List.pairwise_cons.mp hsorted).1 pos htail)

theorem parent_newExpression_iff (linked : tree.Linked) :
    (tree.parent? pos).any (tree.kind · == .newExpression) = true ↔
      IsCallee tree pos ∨ FollowsCallee tree pos := by
  rw [Option.any_eq_true]
  constructor
  · rintro ⟨made, hparent, hkind⟩
    have hnew : tree.kind made = .newExpression := beq_iff_eq.mp hkind
    have hmem : pos ∈ tree.children made := linked.mem_children.mpr hparent
    cases hchildren : tree.children made with
    | nil =>
        rw [hchildren] at hmem
        cases hmem
    | cons first rest =>
        rw [hchildren] at hmem
        rcases List.mem_cons.mp hmem with rfl | hrest
        · exact Or.inl ⟨made, hparent, hnew, by rw [hchildren]; rfl⟩
        · exact Or.inr ⟨made, hnew, by rw [hchildren]; exact hrest⟩
  · rintro (⟨made, hparent, hnew, _⟩ | ⟨made, hnew, htail⟩)
    · exact ⟨made, hparent, beq_iff_eq.mpr hnew⟩
    · exact ⟨made, linked.mem_children.mp (List.mem_of_mem_tail htail), beq_iff_eq.mpr hnew⟩

theorem mem_usages_instantiate :
    Usage.instantiate ∈ usages tree pos ↔ isInstantiation tree pos = true := by
  rw [mem_usages_iff]
  simp [usage?, Usage.kind]

/-- A node has the role of an instantiation when its chain of accesses stands directly in a creation,
in whatever place. So it tells that the node is created, except where the chain stands behind the
thing created. -/
theorem usages_instantiate_iff (filePath source : String) (steps : List Step) (pos : Nat) :
    let tree := Tree.ofSteps filePath source steps
    (.instantiate ∈ usages tree pos ↔
      ∃ outer, tree.ClimbsTo .propertyAccess pos outer ∧
        (IsCallee tree outer ∨ FollowsCallee tree outer)) ∧
    ((.instantiate ∈ usages tree pos ↔
        ∃ outer, tree.ClimbsTo .propertyAccess pos outer ∧ IsCallee tree outer) ↔
      ¬ ∃ outer, tree.ClimbsTo .propertyAccess pos outer ∧ FollowsCallee tree outer) := by
  intro tree
  have linked : tree.Linked := Tree.ofSteps_linked filePath source steps
  simp only [exists_climbsTo_access_and linked]
  have hrole : .instantiate ∈ usages tree pos ↔
      IsCallee tree (outermostAccess tree pos) ∨ FollowsCallee tree (outermostAccess tree pos) :=
    mem_usages_instantiate.trans (parent_newExpression_iff linked)
  refine ⟨hrole, ?_⟩
  rw [hrole]
  constructor
  · intro hsame hfollows
    exact not_followsCallee_of_isCallee linked (hsame.mp (Or.inr hfollows)) hfollows
  · intro hfree
    exact or_iff_left hfree

/-- An argument counts as created along with what it is handed to. -/
theorem usages_instantiate_of_argument :
    let tree := Tree.ofSteps "a.ts" "new Foo(AddTodo);"
      [.enter .other ⟨0, 17⟩, .enter .newExpression ⟨0, 16⟩, .leaf .identifier ⟨4, 7⟩,
        .leaf .identifier ⟨8, 15⟩, .leave, .leave]
    tree.text 4 = "AddTodo" ∧ usages tree 4 = [.unknown, .instantiate] ∧
    ¬ (.instantiate ∈ usages tree 4 ↔
      ∃ outer, tree.ClimbsTo .propertyAccess 4 outer ∧ IsCallee tree outer) := by
  intro tree
  have linked : tree.Linked := Tree.ofSteps_linked _ _ _
  have husages : usages tree 4 = [.unknown, .instantiate] := by decide +kernel
  refine ⟨by decide +kernel, husages, fun h => ?_⟩
  obtain ⟨made, hparent, _, hfirst⟩ :=
    (exists_climbsTo_access_and linked).mp (h.mp (by rw [husages]; decide))
  have houter : outermostAccess tree 4 = 4 := by decide +kernel
  rw [houter] at hparent hfirst
  have hmade : tree.parent? 4 = some 2 := by decide +kernel
  cases hmade.symm.trans hparent
  revert hfirst
  decide +kernel

/-! ## Effects -/

/-- The innermost node above `pos` with a decorator below it is `outer`; the first decorator there
marks an effect, and the member it belongs to is called `name`. -/
def EffectFrom (tree : Tree) (pos outer : Nat) (name : String) : Prop :=
  (tree.ancestors pos).find? (fun above => !(tree.descendants above .decorator).isEmpty) =
    some outer ∧
  ∃ decorator member, (tree.descendants outer .decorator).head? = some decorator ∧
    effectMark <+: (tree.text decorator).toList ∧ tree.parent? decorator = some member ∧
    name = nameOf tree member

theorem EffectFrom.name_eq (linked : tree.Linked) {decorator : Nat} {name : String}
    (hfirst : (tree.descendants outer .decorator).head? = some decorator) :
    name = ((tree.parent? decorator).map (nameOf tree)).getD unknownName ↔
      ∃ member, tree.parent? decorator = some member ∧ name = nameOf tree member := by
  have hdeep := linked.mem_descendants_iff.mp (List.mem_of_mem_head? hfirst)
  obtain ⟨member, hmember, _⟩ := linked.mem_ancestors_iff.mp hdeep.2
  simp [hmember]

theorem effectName?_eq_some_iff (linked : tree.Linked) {name : String} :
    effectName? tree pos = some name ↔
      ∃ outer, EffectFrom tree pos outer name ∧ tree.parent? pos ≠ some outer := by
  have hplain : ∀ found : List Nat, found.head?.isNone = found.isEmpty := by
    intro found
    cases found <;> rfl
  unfold effectName? EffectFrom
  simp only [Option.bind_eq_bind, Tree.firstDescendant?_eq_head?, hplain]
  rw [← Option.bind_assoc, Option.bind_eq_some_iff]
  simp only [linked.bind_highestWhile?_eq_some_iff, Option.bind_eq_some_iff]
  refine exists_congr fun outer => ?_
  constructor
  · rintro ⟨⟨hinnermost, hnotParent⟩, decorator, hfirst, hname⟩
    split at hname
    · rename_i hmark
      cases hname
      obtain ⟨member, hmember, heq⟩ := (EffectFrom.name_eq linked hfirst).mp rfl
      exact ⟨⟨hinnermost, decorator, member, hfirst, dropStart?_isSome_iff.mp hmark, hmember, heq⟩,
        hnotParent⟩
    · cases hname
  · rintro ⟨⟨hinnermost, decorator, member, hfirst, hmark, hmember, heq⟩, hnotParent⟩
    refine ⟨⟨hinnermost, hnotParent⟩, decorator, hfirst, ?_⟩
    rw [if_pos (dropStart?_isSome_iff.mpr hmark)]
    exact congrArg some ((EffectFrom.name_eq linked hfirst).mpr ⟨member, hmember, heq⟩).symm

theorem mem_usages_effect {name : String} :
    Usage.effect name ∈ usages tree pos ↔ effectName? tree pos = some name := by
  rw [mem_usages_iff]
  simp [usage?, Usage.kind]

/-- A node has the role of an effect when the innermost ancestor with a decorator below it is marked as
one by the first of these decorators, and is not the parent of the node. So the role tells what this
ancestor tells, except where the parent is marked. -/
theorem usages_effect_iff (filePath source : String) (steps : List Step) (pos : Nat) :
    let tree := Tree.ofSteps filePath source steps
    (∀ name, .effect name ∈ usages tree pos ↔
      ∃ outer, EffectFrom tree pos outer name ∧ tree.parent? pos ≠ some outer) ∧
    ((∀ name, .effect name ∈ usages tree pos ↔ ∃ outer, EffectFrom tree pos outer name) ↔
      ∀ parent name, tree.parent? pos = some parent → ¬ EffectFrom tree pos parent name) := by
  intro tree
  have linked : tree.Linked := Tree.ofSteps_linked filePath source steps
  have hrole : ∀ name, .effect name ∈ usages tree pos ↔
      ∃ outer, EffectFrom tree pos outer name ∧ tree.parent? pos ≠ some outer :=
    fun name => mem_usages_effect.trans (effectName?_eq_some_iff linked)
  refine ⟨hrole, ?_⟩
  constructor
  · intro hsame parent name hparent hfrom
    obtain ⟨outer, hother, hapart⟩ := (hrole name).mp ((hsame name).mpr ⟨parent, hfrom⟩)
    cases hfrom.1.symm.trans hother.1
    exact hapart hparent
  · intro hfree name
    rw [hrole]
    refine exists_congr fun outer => and_iff_left_of_imp fun hfrom hparent => ?_
    exact hfree outer name hparent hfrom

/-- The value of a member stands right below it, and is not seen to be part of its effect. -/
theorem usages_effect_of_value :
    let tree := Tree.ofSteps "a.ts" "class C \x7b @Effect() save$ = AddTodo; \x7d"
      [.enter .classDeclaration ⟨0, 38⟩, .leaf .identifier ⟨6, 7⟩, .enter .other ⟨8, 38⟩,
        .enter .propertyDeclaration ⟨10, 36⟩, .hint 4 "AddTodo",
        .enter .decorator ⟨10, 19⟩, .enter .other ⟨11, 19⟩, .leaf .identifier ⟨11, 17⟩, .leave, .leave,
        .leaf .identifier ⟨20, 25⟩, .leaf .identifier ⟨28, 35⟩, .leave, .leave, .leave]
    tree.text 9 = "AddTodo" ∧ usages tree 9 = [.unknown] ∧ EffectFrom tree 9 4 "save$" ∧
    ¬ ∀ name, .effect name ∈ usages tree 9 ↔ ∃ outer, EffectFrom tree 9 outer name := by
  intro tree
  have husages : usages tree 9 = [.unknown] := by decide +kernel
  have hfrom : EffectFrom tree 9 4 "save$" :=
    ⟨by decide +kernel, 5, 4, by decide +kernel, by decide +kernel, by decide +kernel,
      by decide +kernel⟩
  refine ⟨by decide +kernel, husages, hfrom, fun h => ?_⟩
  have hmem := (h "save$").mpr ⟨4, hfrom⟩
  rw [husages] at hmem
  simp at hmem

/-! ## Reducers -/

/-- A switch dispatches on a word named by a type: an identifier directly below it, or one in an access
directly below it. -/
def DispatchesByType (tree : Tree) (switch : Nat) : Prop :=
  (∃ word ∈ tree.children switch, tree.kind word = .identifier ∧
    discriminantWord <:+: (tree.text word).toList) ∨
  ∃ access ∈ tree.children switch, tree.kind access = .propertyAccess ∧
    ∃ word, tree.kind word = .identifier ∧ access ∈ tree.ancestors word ∧
      discriminantWord <:+: (tree.text word).toList

theorem dispatchesOnType_iff (linked : tree.Linked) {switch : Nat} :
    dispatchesOnType tree switch = true ↔ DispatchesByType tree switch := by
  unfold dispatchesOnType DispatchesByType
  simp only [Bool.or_eq_true, List.any_eq_true, Tree.childrenOfKind, List.mem_filter, beq_iff_eq,
    linked.mem_descendants_iff, mentionsType, occursIn_iff_infix, and_assoc]

/-- The switch that decides about a node: the nearest one around its chain of accesses. The chain must
not stand directly below a switch, where it is what is dispatched on. -/
def DecidedBy (tree : Tree) (pos switch : Nat) : Prop :=
  ∃ outer, tree.ClimbsTo .propertyAccess pos outer ∧
    (∀ parent, tree.parent? outer = some parent → tree.kind parent ≠ .switchStatement) ∧
    tree.nearest? outer .switchStatement = some switch

theorem decidedBy_iff (linked : tree.Linked) {switch : Nat} :
    DecidedBy tree pos switch ↔
      ((tree.highestWhile? (tree.kind · != .switchStatement) (outermostAccess tree pos)).bind
        tree.parent?) = some switch := by
  have hstop : (fun above => !(tree.kind above != Kind.switchStatement)) =
      fun above => tree.kind above == .switchStatement := by
    funext above
    exact Bool.not_not _
  unfold DecidedBy
  rw [exists_climbsTo_access_and linked, linked.bind_highestWhile?_eq_some_iff, hstop, and_comm]
  exact and_congr_right fun hnearest => (linked.parent_ne_nearest_iff hnearest).symm

theorem isInReducer_iff (linked : tree.Linked) :
    isInReducer tree pos = true ↔
      ∃ switch, DecidedBy tree pos switch ∧ DispatchesByType tree switch := by
  simp only [isInReducer, Option.any_eq_true, decidedBy_iff linked, dispatchesOnType_iff linked]

theorem mem_usages_reducer : Usage.reducer ∈ usages tree pos ↔ isInReducer tree pos = true := by
  rw [mem_usages_iff]
  simp [usage?, Usage.kind]

/-- A node has the role of a reducer when the nearest switch around its chain of accesses dispatches by
type and the chain does not stand directly below a switch. That switch alone decides; what the switches
around it dispatch on makes no difference. -/
theorem usages_reducer_iff (filePath source : String) (steps : List Step) (pos : Nat) :
    let tree := Tree.ofSteps filePath source steps
    (.reducer ∈ usages tree pos ↔
      ∃ switch, DecidedBy tree pos switch ∧ DispatchesByType tree switch) ∧
    ∀ switch, DecidedBy tree pos switch →
      (.reducer ∈ usages tree pos ↔ DispatchesByType tree switch) := by
  intro tree
  have linked : tree.Linked := Tree.ofSteps_linked filePath source steps
  have hrole : .reducer ∈ usages tree pos ↔
      ∃ switch, DecidedBy tree pos switch ∧ DispatchesByType tree switch :=
    mem_usages_reducer.trans (isInReducer_iff linked)
  refine ⟨hrole, fun switch hdecided => ?_⟩
  rw [hrole]
  constructor
  · rintro ⟨other, hother, hdispatches⟩
    rw [decidedBy_iff linked] at hdecided hother
    cases hdecided.symm.trans hother
    exact hdispatches
  · intro hdispatches
    exact ⟨switch, hdecided, hdispatches⟩

-- `Add` and `mode` belong to an inner switch on `mode`, the literal `1` to an outer one on `action.type`.
example :
    let tree := Tree.ofSteps "a.ts"
      "switch (action.type) \x7b case 1: switch (mode) \x7b case Add: \x7d \x7d"
      [.enter .switchStatement ⟨0, 60⟩, .enter .propertyAccess ⟨8, 19⟩, .leaf .identifier ⟨8, 14⟩,
        .leaf .identifier ⟨15, 19⟩, .leave, .enter .other ⟨23, 58⟩, .leaf .other ⟨28, 29⟩,
        .enter .switchStatement ⟨31, 58⟩, .leaf .identifier ⟨39, 43⟩, .enter .other ⟨47, 56⟩,
        .leaf .identifier ⟨52, 55⟩, .leave, .leave, .leave, .leave]
    tree.text 10 = "Add" ∧ usages tree 10 = [.unknown] ∧
      usages tree 8 = [.unknown] ∧ usages tree 6 = [.unknown, .reducer] := by
  decide +kernel

/-! ## Constructors -/

def classAround (tree : Tree) (pos : Nat) : String :=
  ((tree.nearest? pos .classDeclaration).map (nameOf tree)).getD unknownName

theorem mem_usages_constructor {name : String} :
    Usage.constructor name ∈ usages tree pos ↔
      ∃ ctor, tree.nearest? pos .constructor = some ctor ∧ name = classAround tree pos := by
  rw [mem_usages_iff, Usage.kind, usage?, constructorName?, Option.map_map, Option.map_eq_some_iff]
  refine exists_congr fun ctor => and_congr_right fun _ => ?_
  simp [classAround, eq_comm]

/-- A class stands between a node and the constructor around it. -/
def ClassWithin (tree : Tree) (pos ctor cls : Nat) : Prop :=
  tree.nearest? pos .constructor = some ctor ∧ tree.nearest? pos .classDeclaration = some cls ∧
    ctor ∈ tree.ancestors cls

theorem ClassWithin.classAround_eq {ctor cls : Nat} (h : ClassWithin tree pos ctor cls) :
    classAround tree pos = nameOf tree cls := by
  simp [classAround, h.2.1]

theorem classAround_of_nearest (linked : tree.Linked) {ctor : Nat}
    (h : tree.nearest? pos .constructor = some ctor) :
    (∃ cls, ClassWithin tree pos ctor cls) ∨ classAround tree pos = classAround tree ctor := by
  have hmem : ctor ∈ tree.ancestors pos := List.mem_of_find?_eq_some h
  have hctor : tree.kind ctor = .constructor := by simpa using List.find?_some h
  have hkind : tree.kind ctor ≠ .classDeclaration := by simp [hctor]
  rcases linked.nearest?_from_ancestor hmem hkind with ⟨cls, hnearest, hinside⟩ | hsame
  · exact Or.inl ⟨cls, h, hnearest, hinside⟩
  · exact Or.inr (by rw [classAround, hsame, classAround])

/-- A node has the role of a constructor when some constructor is around it, with the name of the class
nearest to the node. This is the class of the nearest constructor, except where a class of another name
stands between the two. -/
theorem usages_constructor_iff (filePath source : String) (steps : List Step) (pos : Nat) :
    let tree := Tree.ofSteps filePath source steps
    ((∃ name, .constructor name ∈ usages tree pos) ↔
      ∃ above ∈ tree.ancestors pos, tree.kind above = .constructor) ∧
    (∀ name, .constructor name ∈ usages tree pos ↔
      ∃ ctor, tree.nearest? pos .constructor = some ctor ∧ name = classAround tree pos) ∧
    ((∀ name, .constructor name ∈ usages tree pos ↔
        ∃ ctor, tree.nearest? pos .constructor = some ctor ∧ name = classAround tree ctor) ↔
      ∀ ctor cls, ClassWithin tree pos ctor cls → nameOf tree cls = classAround tree ctor) := by
  intro tree
  have linked : tree.Linked := Tree.ofSteps_linked filePath source steps
  refine ⟨?_, fun _ => mem_usages_constructor, ?_⟩
  · simp only [mem_usages_constructor, ← Tree.exists_nearest?_iff]
    constructor
    · rintro ⟨_, ctor, hctor, _⟩
      exact ⟨ctor, hctor⟩
    · rintro ⟨ctor, hctor⟩
      exact ⟨_, ctor, hctor, rfl⟩
  · simp only [mem_usages_constructor]
    constructor
    · intro hsame ctor cls hwithin
      obtain ⟨other, hother, hname⟩ := (hsame (classAround tree pos)).mp ⟨ctor, hwithin.1, rfl⟩
      cases hwithin.1.symm.trans hother
      rw [← hwithin.classAround_eq, hname]
    · intro hnamed name
      refine exists_congr fun ctor => and_congr_right fun hctor => ?_
      have hname : classAround tree pos = classAround tree ctor := by
        rcases classAround_of_nearest linked hctor with ⟨cls, hwithin⟩ | hsame
        · rw [hwithin.classAround_eq, hnamed ctor cls hwithin]
        · exact hsame
      rw [hname]

/-- What stands in a class inside of a constructor is named by that class. -/
theorem usages_constructor_of_inner_class :
    let tree := Tree.ofSteps "a.ts"
      "class Outer \x7b constructor() \x7b class Inner \x7b item = AddTodo; \x7d \x7d \x7d"
      [.enter .classDeclaration ⟨0, 65⟩, .leaf .identifier ⟨6, 11⟩, .enter .other ⟨12, 65⟩,
        .enter .constructor ⟨14, 63⟩, .leaf .identifier ⟨14, 25⟩, .enter .other ⟨25, 63⟩,
        .leaf .other ⟨25, 27⟩, .enter .other ⟨28, 63⟩, .enter .classDeclaration ⟨30, 61⟩,
        .leaf .identifier ⟨36, 41⟩, .enter .other ⟨42, 61⟩, .enter .propertyDeclaration ⟨44, 59⟩,
        .hint 12 "AddTodo", .leaf .identifier ⟨44, 48⟩, .leaf .identifier ⟨51, 58⟩]
    tree.text 14 = "AddTodo" ∧ usages tree 14 = [.unknown, .constructor "Inner"] ∧
    tree.nearest? 14 .constructor = some 4 ∧ classAround tree 4 = "Outer" ∧
    ¬ ∀ name, .constructor name ∈ usages tree 14 ↔
      ∃ ctor, tree.nearest? 14 .constructor = some ctor ∧ name = classAround tree ctor := by
  intro tree
  have husages : usages tree 14 = [.unknown, .constructor "Inner"] := by decide +kernel
  have hctor : tree.nearest? 14 .constructor = some 4 := by decide +kernel
  have hclass : classAround tree 4 = "Outer" := by decide +kernel
  refine ⟨by decide +kernel, husages, hctor, hclass, fun h => ?_⟩
  have hmem := (h "Outer").mpr ⟨4, hctor, hclass.symm⟩
  rw [husages] at hmem
  simp at hmem

end ActionAtlas.Classification
