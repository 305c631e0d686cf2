import ActionAtlas.Analysis
import ActionAtlas.Proofs.Contraction
import ActionAtlas.Proofs.NamedEntries
import Mathlib.Data.List.Perm.Basic

/-!
# Which action a place belongs to

Every action takes both of its types in the table, also from actions that had them before; so the
table sends a type to the last action that has it. An identifier belongs to the action that the table
gives for its type, and every action gets exactly the identifiers that belong to it, in the order of
the files and of their texts, also when they are given out one by one as they are met.
-/

namespace ActionAtlas

open Syntax

def Action.HasType (action : Action) (type : String) : Prop :=
  action.classType = type ∨ action.fieldType = type

instance (action : Action) (type : String) : Decidable (action.HasType type) :=
  inferInstanceAs (Decidable (_ ∨ _))

/-! ## What makes a class an action -/

def IsDiscriminant (tree : Tree) (field : Nat) : Prop :=
  (tree.firstChild? field .identifier).map tree.text = some discriminantField

/-- An action is what a class declares by a field: both have a type, that of the field is narrower than
any string, and the field tells actions apart. -/
structure Action.DeclaredBy (action : Action) (typeOf : TypeOracle) (tree : Tree) (cls field : Nat) :
    Prop where
  classType : typeOf tree cls = .ok action.classType
  fieldType : typeOf tree field = .ok action.fieldType
  narrow : action.fieldType ≠ anyString
  discriminant : IsDiscriminant tree field
  name : action.name = Action.displayName action.fieldType
  filePath : action.filePath = tree.filePath
  line : action.line = tree.line cls
  references : action.references = []

theorem inspectClass_eq_ok_some_iff {typeOf : TypeOracle} {tree : Tree} {cls : Nat} {action : Action} :
    inspectClass typeOf tree cls = .ok (some action) ↔
      ∃ field, tree.firstDescendant? cls .propertyDeclaration = some field ∧
        action.DeclaredBy typeOf tree cls field := by
  constructor
  · intro h
    unfold inspectClass at h
    cases hclass : typeOf tree cls with
    | error error => simp [hclass, bind, Except.bind] at h
    | ok classType =>
        simp only [hclass, bind, Except.bind] at h
        split at h
        · cases h
        · rename_i field hfirst
          cases hfield : typeOf tree field with
          | error error => simp [hfield] at h
          | ok fieldType =>
              simp only [hfield] at h
              split at h
              · cases h
              · rename_i name hname
                split at h
                · cases h
                · rename_i haccepted
                  obtain ⟨htext, hnarrow⟩ := not_or.mp haccepted
                  cases h
                  exact ⟨field, hfirst, hclass, hfield, hnarrow,
                    by simpa [IsDiscriminant, hname] using htext, rfl, rfl, rfl, rfl⟩
  · rintro ⟨field, hfirst, declared⟩
    obtain ⟨name, hname, htext⟩ := Option.map_eq_some_iff.mp declared.discriminant
    have haction : action =
        { name := Action.displayName action.fieldType
          filePath := tree.filePath
          line := tree.line cls
          classType := action.classType
          fieldType := action.fieldType } := by
      rw [← declared.name, ← declared.filePath, ← declared.line, ← declared.references]
    have haccepted : ¬ (tree.text name ≠ discriminantField ∨ action.fieldType = anyString) :=
      not_or.mpr ⟨not_not.mpr htext, declared.narrow⟩
    rw [haction]
    simp only [inspectClass, declared.classType, hfirst, declared.fieldType, hname, bind, Except.bind,
      pure, Except.pure, if_neg haccepted]

/-! ## The table after discovery -/

namespace ActionTable

private theorem lookup_replaced (type key : String) (action : Nat) (entries : List (String × Nat)) :
    (entries.map fun entry => if entry.1 == type then (type, action) else entry).lookup key =
      if key = type ∧ entries.any (·.1 == type) then some action else entries.lookup key := by
  induction entries with
  | nil => simp
  | cons entry rest ih =>
      obtain ⟨name, owner⟩ := entry
      by_cases hname : name = type
      · subst hname
        by_cases hkey : key = name
        · simp [hkey]
        · simp only [List.map_cons, beq_self_eq_true, if_true, lookup_cons_of_ne hkey, ih, hkey,
            false_and, if_false]
      · by_cases hkey : key = name
        · subst hkey
          simp [hname]
        · simp only [List.map_cons, beq_eq_false_iff_ne.mpr hname, lookup_cons_of_ne hkey, ih,
            List.any_cons, Bool.false_or, Bool.false_eq_true, if_false]

theorem get?_insert (table : ActionTable) (type key : String) (action : Nat) :
    (table.insert type action).get? key = if key = type then some action else table.get? key := by
  obtain ⟨entries⟩ := table
  unfold insert get?
  split
  · rename_i hknown
    simp only [lookup_replaced, hknown, and_true]
  · rename_i hnew
    have hnone : entries.lookup type = none := by
      rw [List.lookup_eq_none_iff]
      intro entry hentry
      refine bne_iff_ne.mpr fun heq => hnew (List.any_eq_true.mpr ⟨entry, hentry, ?_⟩)
      exact beq_iff_eq.mpr heq.symm
    rw [List.lookup_append]
    by_cases hkey : key = type
    · simp [hkey, hnone]
    · simp [hkey, lookup_cons_of_ne hkey]

/-- The table sends a type to the last action that has it. -/
def PointsToLast (table : ActionTable) (actions : List Action) : Prop :=
  ∀ type index, table.get? type = some index ↔
    (∃ action, actions[index]? = some action ∧ action.HasType type) ∧
    ∀ later action, actions[later]? = some action → action.HasType type → later ≤ index

end ActionTable

namespace Discovery

variable {found : Discovery}

theorem register_get? (found : Discovery) (action : Action) (type : String) :
    (found.register action).table.get? type =
      if type = action.classType ∨ type = action.fieldType then some found.actions.length
      else found.table.get? type := by
  simp only [register, ActionTable.get?_insert]
  by_cases hfield : type = action.fieldType <;> by_cases hclass : type = action.classType <;>
    simp [hfield, hclass]

theorem register_getElem? (found : Discovery) (action : Action) (index : Nat) :
    (found.register action).actions[index]? =
      if index = found.actions.length then some action else found.actions[index]? := by
  simp only [register]
  grind

theorem register_pointsToLast (h : found.table.PointsToLast found.actions) (action : Action) :
    (found.register action).table.PointsToLast (found.register action).actions := by
  intro type index
  simp only [register_get?, register_getElem?]
  by_cases htype : action.HasType type
  · -- the new action is the last of all
    rw [if_pos (htype.imp Eq.symm Eq.symm)]
    constructor
    · intro hindex
      cases hindex
      refine ⟨⟨action, if_pos rfl, htype⟩, ?_⟩
      intro later other hlater _
      split at hlater
      · omega
      · exact Nat.le_of_lt (List.getElem?_eq_some_iff.mp hlater).choose
    · rintro ⟨⟨other, hother, _⟩, hlast⟩
      have hnew := hlast found.actions.length action (if_pos rfl) htype
      split at hother
      · rename_i hindex
        rw [hindex]
      · have hlt := (List.getElem?_eq_some_iff.mp hother).choose
        omega
  · -- an action with the type is an older one
    have hold : ∀ {place other}, other.HasType type →
        ((if place = found.actions.length then some action else found.actions[place]?) = some other ↔
          found.actions[place]? = some other) := by
      intro place other hother
      by_cases hplace : place = found.actions.length
      · rw [if_pos hplace, hplace, List.getElem?_eq_none (Nat.le_refl _)]
        constructor
        · rintro ⟨⟩
          exact absurd hother htype
        · rintro ⟨⟩
      · rw [if_neg hplace]
    rw [if_neg fun hmine => htype (hmine.imp Eq.symm Eq.symm), h type index]
    constructor
    · rintro ⟨⟨other, hother, hhas⟩, hlast⟩
      exact ⟨⟨other, (hold hhas).mpr hother, hhas⟩,
        fun later other hlater hhas => hlast later other ((hold hhas).mp hlater) hhas⟩
    · rintro ⟨⟨other, hother, hhas⟩, hlast⟩
      exact ⟨⟨other, (hold hhas).mp hother, hhas⟩,
        fun later other hlater hhas => hlast later other ((hold hhas).mpr hlater) hhas⟩

theorem foldl_register_pointsToLast (h : found.table.PointsToLast found.actions)
    (actions : List Action) :
    (actions.foldl register found).table.PointsToLast (actions.foldl register found).actions := by
  induction actions generalizing found with
  | nil => exact h
  | cons action rest ih => exact ih (register_pointsToLast h action)

theorem foldl_register_actions (found : Discovery) (actions : List Action) :
    (actions.foldl register found).actions = found.actions ++ actions := by
  induction actions generalizing found with
  | nil => simp
  | cons action rest ih =>
      rw [List.foldl_cons, ih]
      simp [register]

theorem foldl_register_get?_eq_none_iff {actions : List Action} {type : String} :
    (actions.foldl register found).table.get? type = none ↔
      found.table.get? type = none ∧ ∀ action ∈ actions, ¬ action.HasType type := by
  induction actions generalizing found with
  | nil => simp
  | cons action rest ih =>
      rw [List.foldl_cons, ih, register_get?, List.forall_mem_cons]
      by_cases htype : action.HasType type
      · simp [if_pos (htype.imp Eq.symm Eq.symm), htype]
      · rw [if_neg fun hmine => htype (hmine.imp Eq.symm Eq.symm)]
        simp [htype]

variable (trees : List Tree) (typeOf : TypeOracle) (filters : PathFilters)

theorem run_pointsToLast :
    (run trees typeOf filters).table.PointsToLast (run trees typeOf filters).actions := by
  refine foldl_register_pointsToLast ?_ _
  intro type index
  simp [ActionTable.get?]

theorem run_actions :
    (run trees typeOf filters).actions =
      (trees.filter fun tree => filters.isActionsFile tree.filePath).flatMap (actionsOf typeOf) := by
  rw [run, foldl_register_actions]
  rfl

theorem run_get?_eq_none_iff {type : String} :
    (run trees typeOf filters).table.get? type = none ↔
      ∀ action ∈ (run trees typeOf filters).actions, ¬ action.HasType type := by
  rw [run_actions, run, foldl_register_get?_eq_none_iff]
  exact and_iff_right rfl

theorem run_index_lt {type : String} {index : Nat}
    (h : (run trees typeOf filters).table.get? type = some index) :
    index < (run trees typeOf filters).actions.length := by
  obtain ⟨⟨action, haction, _⟩, _⟩ := (run_pointsToLast trees typeOf filters type index).mp h
  exact (List.getElem?_eq_some_iff.mp haction).choose

theorem run_references {action : Action} (h : action ∈ (run trees typeOf filters).actions) :
    action.references = [] := by
  rw [run_actions, List.mem_flatMap] at h
  obtain ⟨tree, _, h⟩ := h
  obtain ⟨pos, _, hfound⟩ := List.mem_filterMap.mp h
  split at hfound
  · rename_i found hinspect
    rw [hfound, inspectClass_eq_ok_some_iff] at hinspect
    obtain ⟨_, _, declared⟩ := hinspect
    exact declared.references
  · cases hfound

end Discovery

/-! ## Places -/

def ActionTable.owner? (table : ActionTable) (typeOf : TypeOracle) (tree : Tree) (pos : Nat) :
    Option Nat :=
  match typeOf tree pos with
  | .ok type => table.get? (stripTypeof type)
  | .error _ => none

def Syntax.Tree.placeAt (tree : Tree) (pos : Nat) : ReferenceEntry where
  filePath := tree.filePath
  line := tree.line pos
  usages := Classification.usages tree pos

variable {typeOf : TypeOracle} {table : ActionTable}

theorem referenceAt?_eq (tree : Tree) (pos : Nat) :
    referenceAt? typeOf table tree pos =
      (table.owner? typeOf tree pos).map fun owner => (owner, tree.placeAt pos) := by
  unfold referenceAt? ActionTable.owner?
  cases typeOf tree pos <;> rfl

/-- The references of one file to the actions at some indices. -/
theorem filter_referencesIn (keep : Nat → Bool) (tree : Tree) :
    ((referencesIn typeOf table tree).filter fun made => keep made.1).map (·.2) =
      ((tree.descendants Tree.root .identifier).filter fun pos =>
        (table.owner? typeOf tree pos).any keep).map tree.placeAt := by
  unfold referencesIn
  induction tree.descendants Tree.root .identifier with
  | nil => rfl
  | cons pos rest ih =>
      rw [List.filterMap_cons, referenceAt?_eq, List.filter_cons]
      cases howner : table.owner? typeOf tree pos with
      | none => simpa using ih
      | some owner =>
          cases hkeep : keep owner with
          | false => simpa [hkeep] using ih
          | true => simpa [hkeep] using ih

theorem referencesIn_of (tree : Tree) (index : Nat) :
    ((referencesIn typeOf table tree).filter (·.1 == index)).map (·.2) =
      ((tree.descendants Tree.root .identifier).filter fun pos =>
        table.owner? typeOf tree pos == some index).map tree.placeAt := by
  have hany : ∀ owner : Option Nat, (owner == some index) = owner.any (· == index) := by
    intro owner
    cases owner <;> rfl
  simp only [hany, filter_referencesIn (· == index)]

theorem map_referencesIn (tree : Tree) :
    (referencesIn typeOf table tree).map (·.2) =
      ((tree.descendants Tree.root .identifier).filter fun pos =>
        (table.owner? typeOf tree pos).isSome).map tree.placeAt := by
  have hany : ∀ owner : Option Nat, owner.isSome = owner.any fun _ => true := by
    intro owner
    cases owner <;> rfl
  simp only [hany, ← filter_referencesIn fun _ => true, List.filter_true]

theorem owner?_of_mem_referencesIn {tree : Tree} {made : Nat × ReferenceEntry}
    (h : made ∈ referencesIn typeOf table tree) :
    ∃ pos, table.owner? typeOf tree pos = some made.1 := by
  obtain ⟨pos, _, hmade⟩ := List.mem_filterMap.mp h
  rw [referenceAt?_eq] at hmade
  obtain ⟨owner, howner, rfl⟩ := Option.map_eq_some_iff.mp hmade
  exact ⟨pos, howner⟩

/-- Sorting references into numbered groups loses and repeats none. -/
theorem flatMap_groups_perm (made : List (Nat × ReferenceEntry)) (count : Nat) :
    ((List.range count).flatMap fun index => (made.filter (·.1 == index)).map (·.2)).Perm
      ((made.filter fun m => decide (m.1 < count)).map (·.2)) := by
  induction count with
  | zero => simp
  | succ count ih =>
      have hsplit := List.filter_append_perm (fun m : Nat × ReferenceEntry => decide (m.1 < count))
        (made.filter fun m => decide (m.1 < count + 1))
      have hbefore : (made.filter fun m => decide (m.1 < count + 1)).filter
          (fun m => decide (m.1 < count)) = made.filter fun m => decide (m.1 < count) := by
        rw [List.filter_filter]
        refine List.filter_congr fun m _ => ?_
        rw [Bool.eq_iff_iff, Bool.and_eq_true, decide_eq_true_eq, decide_eq_true_eq]
        omega
      have hlast : (made.filter fun m => decide (m.1 < count + 1)).filter
          (fun m => !decide (m.1 < count)) = made.filter (·.1 == count) := by
        rw [List.filter_filter]
        refine List.filter_congr fun m _ => ?_
        rw [Bool.eq_iff_iff, Bool.and_eq_true, Bool.not_eq_true', decide_eq_false_iff_not,
          decide_eq_true_eq, beq_iff_eq]
        omega
      rw [hbefore, hlast] at hsplit
      rw [List.range_succ, List.flatMap_append, List.flatMap_singleton]
      refine (ih.append_right _).trans ?_
      rw [← List.map_append]
      exact hsplit.map _

namespace Discovery

variable (trees : List Tree) (filters : PathFilters)

/-- The places that belong to an action, in the order of the files and of their texts. -/
def placesTo (found : Discovery) (trees : List Tree) (typeOf : TypeOracle) (filters : PathFilters)
    (index : Nat) : List ReferenceEntry :=
  (trees.filter fun tree => !filters.isExcluded tree.filePath).flatMap fun tree =>
    ((tree.descendants Tree.root .identifier).filter fun pos =>
      found.table.owner? typeOf tree pos == some index).map tree.placeAt

theorem aggregate_getElem? (found : Discovery) (index : Nat) :
    (found.aggregate trees typeOf filters)[index]? =
      found.actions[index]?.map fun action =>
        { action with
          references := action.references ++ found.placesTo trees typeOf filters index } := by
  unfold aggregate placesTo
  simp only [List.getElem?_mapIdx, List.filter_flatMap, List.map_flatMap, referencesIn_of]

theorem aggregate_length (found : Discovery) :
    (found.aggregate trees typeOf filters).length = found.actions.length := by
  simp [aggregate]

theorem aggregate_run_getElem? {index : Nat} {action : Action}
    (h : (run trees typeOf filters).actions[index]? = some action) :
    ((run trees typeOf filters).aggregate trees typeOf filters)[index]? =
      some { action with
        references := (run trees typeOf filters).placesTo trees typeOf filters index } := by
  have hbare := run_references trees typeOf filters (List.mem_of_getElem? h)
  rw [aggregate_getElem?, h, Option.map_some, hbare, List.nil_append]

theorem referencesIn_lt {found : Discovery}
    (hwithin : ∀ type index, found.table.get? type = some index → index < found.actions.length)
    {tree : Tree} {made : Nat × ReferenceEntry} (h : made ∈ referencesIn typeOf found.table tree) :
    made.1 < found.actions.length := by
  obtain ⟨pos, howner⟩ := owner?_of_mem_referencesIn h
  unfold ActionTable.owner? at howner
  split at howner
  · exact hwithin _ _ howner
  · cases howner

theorem map_references_aggregate_run :
    ((run trees typeOf filters).aggregate trees typeOf filters).map (·.references) =
      (List.range (run trees typeOf filters).actions.length).map
        ((run trees typeOf filters).placesTo trees typeOf filters) := by
  refine List.ext_getElem (by simp [aggregate_length]) fun index hindex _ => ?_
  rw [List.length_map, aggregate_length] at hindex
  have hresult := aggregate_run_getElem? trees filters (List.getElem?_eq_getElem hindex)
  obtain ⟨_, hresult⟩ := List.getElem?_eq_some_iff.mp hresult
  simp [hresult]

/-- Every place that belongs to an action is handed out, and once. -/
theorem aggregate_run_perm :
    (((run trees typeOf filters).aggregate trees typeOf filters).flatMap (·.references)).Perm
      ((trees.filter fun tree => !filters.isExcluded tree.filePath).flatMap fun tree =>
        ((tree.descendants Tree.root .identifier).filter fun pos =>
          ((run trees typeOf filters).table.owner? typeOf tree pos).isSome).map tree.placeAt) := by
  -- the table holds no index beyond the actions, so the groups leave nothing out
  have hbound : ∀ made ∈ (trees.filter fun tree => !filters.isExcluded tree.filePath).flatMap
        (referencesIn typeOf (run trees typeOf filters).table),
      decide (made.1 < (run trees typeOf filters).actions.length) = true := by
    intro made hmade
    obtain ⟨tree, _, hmade⟩ := List.mem_flatMap.mp hmade
    exact decide_eq_true (referencesIn_lt (fun _ _ => run_index_lt trees typeOf filters) hmade)
  have hgroups := flatMap_groups_perm
    ((trees.filter fun tree => !filters.isExcluded tree.filePath).flatMap
      (referencesIn typeOf (run trees typeOf filters).table)) (run trees typeOf filters).actions.length
  rw [List.filter_eq_self.mpr hbound] at hgroups
  simp only [List.filter_flatMap, List.map_flatMap, referencesIn_of, map_referencesIn] at hgroups
  rw [List.flatMap_def, map_references_aggregate_run, ← List.flatMap_def]
  exact hgroups

end Discovery

/-! ### References given one by one -/

/-- One more reference for the action at an index; none when there is no such action. -/
def Action.give? (actions : List Action) (made : Nat × ReferenceEntry) : Option (List Action) :=
  if made.1 < actions.length then
    some (actions.modify made.1 fun action =>
      { action with references := action.references ++ [made.2] })
  else none

theorem Action.foldlM_give? {actions : List Action} {made : List (Nat × ReferenceEntry)}
    (h : ∀ reference ∈ made, reference.1 < actions.length) :
    made.foldlM give? actions = some (actions.mapIdx fun index action =>
      { action with
        references := action.references ++ (made.filter (·.1 == index)).map (·.2) }) := by
  induction made generalizing actions with
  | nil =>
      have hsame : actions = actions.mapIdx fun _ action => action := by
        apply List.ext_getElem?
        simp
      simpa using hsame
  | cons first rest ih =>
      have hfirst : first.1 < actions.length := h first List.mem_cons_self
      have hrest : ∀ reference ∈ rest, reference.1 < (actions.modify first.1 fun action =>
          { action with references := action.references ++ [first.2] }).length := by
        intro reference hreference
        rw [List.length_modify]
        exact h reference (List.mem_cons_of_mem first hreference)
      rw [List.foldlM_cons, give?, if_pos hfirst, Option.bind_eq_bind, Option.bind_some, ih hrest]
      congr 1
      apply List.ext_getElem?
      intro index
      rw [List.getElem?_mapIdx, List.getElem?_mapIdx, List.getElem?_modify]
      by_cases hindex : first.1 = index
      · simp [hindex, Function.comp_def]
      · simp [hindex]

namespace Discovery

variable (found : Discovery) (trees : List Tree) (typeOf : TypeOracle) (filters : PathFilters)

def giveFrom? (actions : List Action) (tree : Tree) : Option (List Action) :=
  (tree.descendants Tree.root .identifier).foldlM
    (fun actions pos =>
      (referenceAt? typeOf found.table tree pos).elim (some actions) (Action.give? actions))
    actions

/-- The references given identifier by identifier and file by file, each as it is met. -/
def giveAll? : Option (List Action) :=
  trees.foldlM
    (fun actions tree =>
      if filters.isExcluded tree.filePath then some actions else found.giveFrom? typeOf actions tree)
    found.actions

theorem giveFrom?_eq_foldlM (actions : List Action) (tree : Tree) :
    found.giveFrom? typeOf actions tree =
      (referencesIn typeOf found.table tree).foldlM Action.give? actions := by
  rw [giveFrom?, referencesIn, List.foldlM_filterMap]
  congr 1
  funext actions pos
  cases referenceAt? typeOf found.table tree pos <;> rfl

theorem giveAll?_eq_foldlM :
    found.giveAll? trees typeOf filters =
      ((trees.filter fun tree => !filters.isExcluded tree.filePath).flatMap
        (referencesIn typeOf found.table)).foldlM Action.give? found.actions := by
  unfold giveAll?
  generalize found.actions = actions
  induction trees generalizing actions with
  | nil => rfl
  | cons tree rest ih =>
      rw [List.foldlM_cons, List.filter_cons]
      cases hexcluded : filters.isExcluded tree.filePath with
      | true => simpa using ih actions
      | false =>
          have hrest := funext ih
          simp [giveFrom?_eq_foldlM found typeOf actions tree, hrest]

/-- While the table holds no index beyond the actions, giving references one by one never misses its
action, and every action ends up with its group of them. -/
theorem giveAll?_eq_aggregate
    (hwithin : ∀ type index, found.table.get? type = some index → index < found.actions.length) :
    found.giveAll? trees typeOf filters = some (found.aggregate trees typeOf filters) := by
  have hmade : ∀ made ∈ (trees.filter fun tree => !filters.isExcluded tree.filePath).flatMap
      (referencesIn typeOf found.table), made.1 < found.actions.length := by
    intro made hmade
    obtain ⟨tree, _, hmade⟩ := List.mem_flatMap.mp hmade
    exact referencesIn_lt hwithin hmade
  rw [giveAll?_eq_foldlM, Action.foldlM_give? hmade]
  rfl

theorem giveAll?_run :
    (run trees typeOf filters).giveAll? trees typeOf filters =
      some (analyzeTrees trees typeOf filters) := by
  apply giveAll?_eq_aggregate
  intro type index hindex
  exact run_index_lt trees typeOf filters hindex

end Discovery

/-- What an analysis of built trees attributes to whom. The table sends a type to the last action that
has it. Every action found keeps what was known of it and gets the places that belong to it, which are
identifiers of the files that are not left out. The identifiers of a file are listed once each, and
all places of identifiers that belong to an action are handed out, each of them once. -/
theorem analyzeTrees_attributes (builds : List (String × String × List Step)) (typeOf : TypeOracle)
    (filters : PathFilters) :
    let trees := builds.map fun build => Tree.ofSteps build.1 build.2.1 build.2.2
    let found := Discovery.run trees typeOf filters
    let actions := found.aggregate trees typeOf filters
    (∀ type index, found.table.get? type = some index ↔
      (∃ action, found.actions[index]? = some action ∧ action.HasType type) ∧
      ∀ later action, found.actions[later]? = some action → action.HasType type → later ≤ index) ∧
    (∀ type, found.table.get? type = none ↔ ∀ action ∈ found.actions, ¬ action.HasType type) ∧
    (∀ type index, found.table.get? type = some index → index < found.actions.length) ∧
    analyzeTrees trees typeOf filters = actions ∧
    actions.length = found.actions.length ∧
    (∀ (index : Nat) (action : Action), found.actions[index]? = some action →
      actions[index]? =
        some { action with references := found.placesTo trees typeOf filters index }) ∧
    (∀ tree ∈ trees,
      (tree.descendants Tree.root .identifier).Pairwise (· < ·) ∧
      ∀ pos, pos ∈ tree.descendants Tree.root .identifier ↔
        tree.kind pos = .identifier ∧ Tree.root ∈ tree.ancestors pos) ∧
    (actions.flatMap (·.references)).Perm
      ((trees.filter fun tree => !filters.isExcluded tree.filePath).flatMap fun tree =>
        ((tree.descendants Tree.root .identifier).filter fun pos =>
          (found.table.owner? typeOf tree pos).isSome).map tree.placeAt) := by
  intro trees found actions
  refine ⟨Discovery.run_pointsToLast trees typeOf filters,
    fun _ => Discovery.run_get?_eq_none_iff trees typeOf filters,
    fun _ _ h => Discovery.run_index_lt trees typeOf filters h, rfl,
    found.aggregate_length trees filters,
    fun _ _ h => Discovery.aggregate_run_getElem? trees filters h, ?_,
    Discovery.aggregate_run_perm trees filters⟩
  intro tree htree
  obtain ⟨build, _, rfl⟩ := List.mem_map.mp htree
  have linked := Tree.ofSteps_linked build.1 build.2.1 build.2.2
  exact ⟨linked.descendants_sorted (Tree.ofSteps_contiguous _ _ _) _ _,
    fun _ => linked.mem_descendants_iff⟩

end ActionAtlas
