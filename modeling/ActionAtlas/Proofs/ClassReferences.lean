import ActionAtlas.Proofs.FirstFields

/-!
# References to a class by its name

A class is found under the name that its declaration gives it. A name elsewhere gets its type in one of
three ways: as the member of an enum, as a type where one is written, or as a value, whose type is
marked. Without the mark the last two are the name itself, so every occurrence of the name leads to the
action of the class, unless it is the member of an enum or a later action has taken the name.
-/

namespace ActionAtlas

open Syntax

/-! ## The mark of a declaration's type -/

theorem stripTypeof_markTypeof (name : String) : stripTypeof (markTypeof name) = name := by
  have hstart : dropStart? typeofMark (markTypeof name).toList = some name.toList := by
    rw [markTypeof, String.toList_ofList, dropStart?_eq_some_iff]
  rw [stripTypeof, hstart, Option.map_some, Option.getD_some, String.ofList_toList]

theorem stripTypeof_of_space_notMem {name : String} (h : ' ' ∉ name.toList) :
    stripTypeof name = name := by
  have hstart : dropStart? typeofMark name.toList = none := by
    refine Option.eq_none_iff_forall_ne_some.mpr fun rest hrest => h ?_
    rw [dropStart?_eq_some_iff.mp hrest]
    exact List.mem_append_left rest (by decide)
  rw [stripTypeof, hstart, Option.map_none, Option.getD_none]

/-! ## Types of names -/

namespace Declarations

variable {declared : Declarations} {tree : Tree} {pos : Nat}

/-- A node is the member in an access of two parts on a declared enum. -/
def NamesMember (declared : Declarations) (tree : Tree) (pos : Nat) : Prop :=
  ∃ access object, tree.parent? pos = some access ∧ tree.kind access = .propertyAccess ∧
    tree.children access = [object, pos] ∧ declared.isEnum (lastSegment (tree.text object)) = true

theorem enumMember?_isSome_iff :
    (declared.enumMember? tree pos).isSome = true ↔ declared.NamesMember tree pos := by
  constructor
  · intro h
    obtain ⟨type, htype⟩ := Option.isSome_iff_exists.mp h
    unfold enumMember? at htype
    obtain ⟨access, hparent, htype⟩ := Option.bind_eq_some_iff.mp htype
    split at htype
    · rename_i object member hkind hchildren
      obtain ⟨⟨rfl, henum⟩, _⟩ := Option.ite_none_right_eq_some.mp htype
      exact ⟨access, object, hparent, hkind, hchildren, henum⟩
    · cases htype
  · rintro ⟨access, object, hparent, hkind, hchildren, henum⟩
    simp [enumMember?, hparent, hkind, hchildren, henum]

/-- The type of a class's name is the name, where a type is written and, but for the mark, anywhere
else. -/
theorem exists_typeOf_className (hkind : tree.kind pos = .identifier)
    (hclass : declared.isClass (tree.text pos) = true) (hmember : ¬ declared.NamesMember tree pos)
    (hspace : ' ' ∉ (tree.text pos).toList) :
    ∃ type, declared.typeOf tree pos = .ok type ∧ stripTypeof type = tree.text pos := by
  have hnone : declared.enumMember? tree pos = none := by
    simpa using mt enumMember?_isSome_iff.mp hmember
  simp only [typeOf, hkind, identifierType, hnone, hclass, if_true]
  by_cases htype : inTypePosition tree pos = true
  · exact ⟨_, rfl, by rw [if_pos htype, stripTypeof_of_space_notMem hspace]⟩
  · exact ⟨_, rfl, by rw [if_neg htype, stripTypeof_markTypeof]⟩

theorem exists_name_of_typeOf_class {cls : Nat} {type : String}
    (hkind : tree.kind cls = .classDeclaration) (h : declared.typeOf tree cls = .ok type) :
    ∃ name, tree.firstChild? cls .identifier = some name ∧ tree.text name = type := by
  cases hname : tree.firstChild? cls .identifier with
  | none => simp [typeOf, hkind, hname] at h
  | some name =>
      simp only [typeOf, hkind, hname] at h
      exact ⟨name, rfl, Except.ok.inj h⟩

end Declarations

/-! ## Names of top classes -/

/-- The identifier that gives a class at the top of a file its name. -/
structure NamesTopClass (tree : Tree) (cls name : Nat) : Prop where
  top : cls ∈ tree.childrenOfKind Tree.root .classDeclaration
  first : tree.firstChild? cls .identifier = some name

namespace NamesTopClass

variable {tree : Tree} {cls name : Nat}

theorem kind_class (h : NamesTopClass tree cls name) : tree.kind cls = .classDeclaration :=
  beq_iff_eq.mp (List.mem_filter.mp h.top).2

theorem kind_name (h : NamesTopClass tree cls name) : tree.kind name = .identifier := by
  simpa using List.find?_some h.first

theorem parent_class (h : NamesTopClass tree cls name) (linked : tree.Linked) :
    tree.parent? cls = some Tree.root :=
  linked.mem_children.mp (List.mem_filter.mp h.top).1

theorem parent_name (h : NamesTopClass tree cls name) (linked : tree.Linked) :
    tree.parent? name = some cls :=
  linked.mem_children.mp (List.mem_of_find?_eq_some h.first)

theorem class_mem_descendants (h : NamesTopClass tree cls name) (linked : tree.Linked) :
    cls ∈ tree.descendants Tree.root .classDeclaration := by
  have habove : Tree.root ∈ tree.ancestors cls :=
    linked.mem_ancestors_iff.mpr ⟨_, h.parent_class linked, Or.inl rfl⟩
  exact linked.mem_descendants_iff.mpr ⟨h.kind_class, habove⟩

theorem name_mem_descendants (h : NamesTopClass tree cls name) (linked : tree.Linked) :
    name ∈ tree.descendants Tree.root .identifier := by
  have habove := (linked.mem_descendants_iff.mp (h.class_mem_descendants linked)).2
  have hname : Tree.root ∈ tree.ancestors name :=
    linked.mem_ancestors_iff.mpr ⟨cls, h.parent_name linked, Or.inr habove⟩
  exact linked.mem_descendants_iff.mpr ⟨h.kind_name, hname⟩

theorem isClass (h : NamesTopClass tree cls name) (linked : tree.Linked) {trees : List Tree}
    (htree : tree ∈ trees) : (Declarations.ofTrees trees).isClass (tree.text name) = true := by
  have hnames : tree.text name ∈ Declarations.namesIn tree .classDeclaration := by
    refine List.mem_filterMap.mpr ⟨cls, h.class_mem_descendants linked, ?_⟩
    rw [h.first, Option.map_some]
  exact List.contains_iff_mem.mpr (List.mem_flatMap.mpr ⟨tree, htree, hnames⟩)

theorem not_namesMember (h : NamesTopClass tree cls name) (linked : tree.Linked)
    (declared : Declarations) : ¬ declared.NamesMember tree name := by
  rintro ⟨access, _, hparent, hkind, _⟩
  cases (h.parent_name linked).symm.trans hparent
  rw [h.kind_class] at hkind
  cases hkind

end NamesTopClass

namespace Discovery

variable {trees : List Tree} {typeOf : TypeOracle} {declared : Declarations} {filters : PathFilters}
  {action : Action} {index : Nat}

/-- An action is declared by a class at the top of a file, under the name of this class. -/
theorem exists_namesTopClass (h : action ∈ (run trees declared.typeOf filters).actions) :
    ∃ tree ∈ trees, ∃ cls field name, action.DeclaredBy declared.typeOf tree cls field ∧
      NamesTopClass tree cls name ∧ tree.text name = action.classType := by
  obtain ⟨⟨tree, cls⟩, hplace, field, _, hdeclared⟩ :=
    (run_picks_firstField trees declared.typeOf filters).exists_of_mem h
  obtain ⟨⟨htree, _⟩, htop⟩ := mem_candidates.mp hplace
  obtain ⟨name, hname, htext⟩ :=
    Declarations.exists_name_of_typeOf_class (kind_of_mem_candidates hplace) hdeclared.classType
  exact ⟨tree, htree, cls, field, name, hdeclared, ⟨htop, hname⟩, htext⟩

/-! ## What a node adds -/

def added (found : Discovery) (typeOf : TypeOracle) (index : Nat) (tree : Tree) (pos : Nat) :
    List ReferenceEntry :=
  ((referenceAt? typeOf found.table tree pos).toList.filter (·.1 == index)).map (·.2)

theorem added_of_owner {found : Discovery} {tree : Tree} {pos : Nat}
    (h : found.table.owner? typeOf tree pos = some index) :
    found.added typeOf index tree pos = [tree.placeAt pos] := by
  simp [added, referenceAt?_eq, h]

theorem placesTo_eq_flatMap (found : Discovery) (index : Nat) :
    found.placesTo trees typeOf filters index =
      (trees.filter fun tree => !filters.isExcluded tree.filePath).flatMap fun tree =>
        (tree.descendants Tree.root .identifier).flatMap (found.added typeOf index tree) := by
  unfold placesTo
  refine List.flatMap_congr fun tree _ => ?_
  rw [← referencesIn_of, referencesIn, List.filterMap_eq_flatMap_toList, List.filter_flatMap,
    List.map_flatMap]
  rfl

theorem mem_placesTo_of_added {found : Discovery} {tree : Tree} {pos : Nat} (htree : tree ∈ trees)
    (hkept : filters.isExcluded tree.filePath = false)
    (hpos : pos ∈ tree.descendants Tree.root .identifier)
    (hadded : found.added typeOf index tree pos = [tree.placeAt pos]) :
    tree.placeAt pos ∈ found.placesTo trees typeOf filters index := by
  have hfile : tree ∈ trees.filter fun tree => !filters.isExcluded tree.filePath :=
    List.mem_filter.mpr ⟨htree, by rw [hkept]; rfl⟩
  rw [placesTo_eq_flatMap]
  refine List.mem_flatMap.mpr ⟨tree, hfile, List.mem_flatMap.mpr ⟨pos, hpos, ?_⟩⟩
  rw [hadded]
  exact List.mem_singleton.mpr rfl

/-- A type that no later action has leads to the action. -/
theorem run_get?_of_last {type : String} (h : (run trees typeOf filters).actions[index]? = some action)
    (htype : action.HasType type)
    (hlast : ∀ later other, index < later → (run trees typeOf filters).actions[later]? = some other →
      ¬ other.HasType type) : (run trees typeOf filters).table.get? type = some index := by
  refine (run_pointsToLast trees typeOf filters type index).mpr ⟨⟨action, h, htype⟩, ?_⟩
  intro later other hother hhas
  by_contra hlater
  exact hlast later other (by omega) hother hhas

/-- All occurrences of a class's name, but for members of enums, belong to the last action with it. -/
theorem owner?_of_className (table : ActionTable) {tree : Tree} {pos : Nat}
    (hkind : tree.kind pos = .identifier) (hclass : declared.isClass (tree.text pos) = true)
    (hmember : ¬ declared.NamesMember tree pos) (hspace : ' ' ∉ (tree.text pos).toList) :
    table.owner? declared.typeOf tree pos = table.get? (tree.text pos) := by
  obtain ⟨type, htype, hstrip⟩ := Declarations.exists_typeOf_className hkind hclass hmember hspace
  rw [ActionTable.owner?, htype, ← hstrip]

end Discovery

/-- The references to a class by its name, in built trees with no spaces in identifiers. The references
of an action are what the identifiers of the files add to it, in order and each identifier once. Where
no later action has the name of the class as a type, an identifier with this name that is not the member
of an enum adds exactly one, its own place. So the action has a reference at its own class's name, unless
its file is left out. -/
theorem analyzeTrees_refers_by_name (builds : List (String × String × List Step))
    (filters : PathFilters) (index : Nat) (action : Action) :
    let trees := builds.map fun build => Tree.ofSteps build.1 build.2.1 build.2.2
    let declared := Declarations.ofTrees trees
    let found := Discovery.run trees declared.typeOf filters
    (∀ tree ∈ trees, ∀ pos ∈ tree.descendants Tree.root .identifier,
      ' ' ∉ (tree.text pos).toList) →
    found.actions[index]? = some action →
    (∀ later other, index < later → found.actions[later]? = some other →
      ¬ other.HasType action.classType) →
    ∃ references,
      (analyzeTrees trees declared.typeOf filters)[index]? = some { action with references } ∧
      references =
        ((trees.filter fun tree => !filters.isExcluded tree.filePath).flatMap fun tree =>
          (tree.descendants Tree.root .identifier).flatMap
            (found.added declared.typeOf index tree)) ∧
      (∀ tree ∈ trees, (tree.descendants Tree.root .identifier).Nodup) ∧
      (∀ tree ∈ trees, ∀ pos ∈ tree.descendants Tree.root .identifier,
        tree.text pos = action.classType → ¬ declared.NamesMember tree pos →
          found.added declared.typeOf index tree pos = [tree.placeAt pos]) ∧
      (filters.isExcluded action.filePath = false →
        ∃ tree ∈ trees, ∃ cls field name, action.DeclaredBy declared.typeOf tree cls field ∧
          NamesTopClass tree cls name ∧ tree.text name = action.classType ∧
          tree.placeAt name ∈ references) := by
  intro trees declared found hspace haction hlast
  have built : ∀ tree ∈ trees, tree.Linked ∧ tree.Contiguous := by
    intro tree htree
    obtain ⟨build, _, rfl⟩ := List.mem_map.mp htree
    exact ⟨Tree.ofSteps_linked _ _ _, Tree.ofSteps_contiguous _ _ _⟩
  obtain ⟨home, hhome, cls, field, name, hdeclared, htop, hname⟩ :=
    Discovery.exists_namesTopClass (List.mem_of_getElem? haction)
  have linked : home.Linked := (built home hhome).1
  have hclass : declared.isClass action.classType = true := hname ▸ htop.isClass linked hhome
  have htable : found.table.get? action.classType = some index :=
    Discovery.run_get?_of_last haction (Or.inl rfl) hlast
  have hadded : ∀ tree ∈ trees, ∀ pos ∈ tree.descendants Tree.root .identifier,
      tree.text pos = action.classType → ¬ declared.NamesMember tree pos →
        found.added declared.typeOf index tree pos = [tree.placeAt pos] := by
    intro tree htree pos hpos htext hmember
    have howner := Discovery.owner?_of_className found.table
      (Tree.kind_of_mem_descendants hpos) (htext ▸ hclass) hmember (hspace tree htree pos hpos)
    rw [htext, htable] at howner
    exact Discovery.added_of_owner howner
  refine ⟨_, Discovery.aggregate_run_getElem? trees filters haction,
    Discovery.placesTo_eq_flatMap found index, ?_, hadded, ?_⟩
  · intro tree htree
    obtain ⟨linked, contiguous⟩ := built tree htree
    exact (linked.descendants_sorted contiguous _ _).imp Nat.ne_of_lt
  · intro hkept
    have hpos := htop.name_mem_descendants linked
    have hown := hadded home hhome name hpos hname (htop.not_namesMember linked declared)
    rw [hdeclared.filePath] at hkept
    exact ⟨home, hhome, cls, field, name, hdeclared, htop, hname,
      Discovery.mem_placesTo_of_added hhome hkept hpos hown⟩

/-- The name of a class stands in its declaration, as the name of an enum's member, as a value, behind an
enum and as a type. All but the one behind the enum refer to the action. -/
theorem analyzeTrees_refers_by_name_in_two_files :
    let builds : List (String × String × List Step) :=
      [("a.ts", "class Add\x7btype='a'\x7d",
          [.enter .classDeclaration ⟨0, 19⟩, .leaf .identifier ⟨6, 9⟩,
            .enter .propertyDeclaration ⟨10, 18⟩, .leaf .identifier ⟨10, 14⟩, .leave,
            .hint 3 "\"a\"", .leave]),
        ("b.ts", "enum Kind\x7bAdd\x7d go(Add,Kind.Add,x as Add)",
          [.enter .enumDeclaration ⟨0, 14⟩, .leaf .identifier ⟨5, 9⟩, .leaf .identifier ⟨10, 13⟩,
            .leave, .enter .other ⟨15, 40⟩, .leaf .identifier ⟨15, 17⟩, .leaf .identifier ⟨18, 21⟩,
            .enter .propertyAccess ⟨22, 30⟩, .leaf .identifier ⟨22, 26⟩, .leaf .identifier ⟨27, 30⟩,
            .leave, .leaf .identifier ⟨31, 32⟩, .enter .typeReference ⟨36, 39⟩,
            .leaf .identifier ⟨36, 39⟩, .leave, .leave])]
    let trees := builds.map fun build => Tree.ofSteps build.1 build.2.1 build.2.2
    let declared := Declarations.ofTrees trees
    let found := Discovery.run trees declared.typeOf {}
    let add : Action :=
      { name := "a", filePath := "a.ts", line := 1, classType := "Add", fieldType := "\"a\"" }
    (∀ tree ∈ trees, ∀ pos ∈ tree.descendants Tree.root .identifier, ' ' ∉ (tree.text pos).toList) ∧
    found.actions[0]? = some add ∧
    (∀ later other, 0 < later → found.actions[later]? = some other → ¬ other.HasType "Add") ∧
    ∃ references, (analyzeTrees trees declared.typeOf {})[0]? = some { add with references } ∧
      references.map (·.filePath) = ["a.ts", "b.ts", "b.ts", "b.ts"] ∧
      ∀ tree ∈ trees, ∀ pos ∈ tree.descendants Tree.root .identifier,
        tree.text pos = "Add" → ¬ declared.NamesMember tree pos →
          found.added declared.typeOf 0 tree pos = [tree.placeAt pos] := by
  intro builds trees declared found add
  have hspace : ∀ tree ∈ trees, ∀ pos ∈ tree.descendants Tree.root .identifier,
      ' ' ∉ (tree.text pos).toList := by decide +kernel
  have hactions : found.actions = [add] := by decide +kernel
  have hfirst : found.actions[0]? = some add := by rw [hactions]; rfl
  have hlast : ∀ later other, 0 < later → found.actions[later]? = some other →
      ¬ other.HasType "Add" := by
    intro later other hlater hother
    rw [hactions, List.getElem?_eq_none (Nat.succ_le_of_lt hlater)] at hother
    cases hother
  obtain ⟨references, hresult, hreferences, _, hadded, _⟩ :=
    analyzeTrees_refers_by_name builds {} 0 add hspace hfirst hlast
  exact ⟨hspace, hfirst, hlast, references, hresult, by rw [hreferences]; decide +kernel, hadded⟩

end ActionAtlas
