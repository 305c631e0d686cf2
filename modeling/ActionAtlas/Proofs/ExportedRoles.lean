import ActionAtlas.Proofs.Attribution
import ActionAtlas.Proofs.GraphBuild

/-!
# Roles in the graph of an analysis

A place is classified once for each kind of usage, so it has at most one usage of a kind. What is
written out lacks the usage that says nothing; what is left of a place is then either noise, or has a
usage that names it. So the graph of an analysis has no node of unknown kind, and whether places
without any usage are written out makes no difference to it.
-/

namespace ActionAtlas

open Syntax

/-! ## One usage of each kind -/

namespace Classification

variable {tree : Tree} {pos : Nat}

theorem usage?_kind {kind : UsageKind} {usage : Usage} (h : usage? tree pos kind = some usage) :
    usage.kind = kind := by
  cases kind with
  | unknown => cases h; rfl
  | instantiate | reducer =>
      simp only [usage?] at h
      split at h
      · cases h; rfl
      · cases h
  | effect | method | constructor =>
      obtain ⟨_, _, rfl⟩ := Option.map_eq_some_iff.mp h
      rfl

theorem mem_usages_iff {usage : Usage} :
    usage ∈ usages tree pos ↔ usage? tree pos usage.kind = some usage := by
  rw [usages, List.mem_filterMap]
  constructor
  · rintro ⟨kind, _, hfound⟩
    rw [usage?_kind hfound]
    exact hfound
  · intro hfound
    refine ⟨usage.kind, ?_, hfound⟩
    cases usage.kind <;> decide

theorem kinds_filterMap_usage? (kinds : List UsageKind) :
    (kinds.filterMap (usage? tree pos)).map (·.kind) =
      kinds.filter fun kind => (usage? tree pos kind).isSome := by
  induction kinds with
  | nil => rfl
  | cons kind rest ih =>
      cases hfound : usage? tree pos kind with
      | none => simpa [hfound] using ih
      | some usage => simpa [hfound, usage?_kind hfound] using ih

theorem usages_kinds_nodup (tree : Tree) (pos : Nat) :
    ((usages tree pos).map (·.kind)).Nodup := by
  rw [usages, kinds_filterMap_usage?]
  exact List.Nodup.filter _ (by decide)

end Classification

/-! ## The usage that names a place -/

theorem Usage.mem_of_dominant? {usages : List Usage} {usage : Usage}
    (h : dominant? usages = some usage) : usage ∈ usages ∧ usage.kind ≠ .instantiate := by
  obtain ⟨kind, hkind, hlast⟩ := List.exists_of_findSome?_eq_some h
  have hmem := List.mem_of_find?_eq_some hlast
  have hsame : usage.kind = kind := by simpa using List.find?_some hlast
  refine ⟨List.mem_reverse.mp hmem, ?_⟩
  rw [hsame]
  rintro rfl
  exact absurd hkind (by decide)

/-- Only an instantiation cannot name a place. -/
theorem Usage.exists_dominant? {usages : List Usage} {usage : Usage} (h : usage ∈ usages)
    (hkind : usage.kind ≠ .instantiate) : ∃ found, dominant? usages = some found := by
  have hpriority : usage.kind ∈ UsageKind.byPriority := by
    revert hkind
    cases usage.kind <;> decide
  have hlast : (lastOfKind? usages usage.kind).isSome := by
    rw [lastOfKind?, List.find?_isSome]
    exact ⟨usage, List.mem_reverse.mpr h, beq_self_eq_true _⟩
  refine Option.isSome_iff_exists.mp ?_
  rw [dominant?, List.findSome?_isSome_iff]
  exact ⟨usage.kind, hpriority, hlast⟩

theorem UsageKind.nodeKind_of_named {kind : UsageKind} (hunknown : kind ≠ .unknown)
    (hinstantiate : kind ≠ .instantiate) :
    kind.nodeKind = .effect ∨ kind.nodeKind = .method ∨ kind.nodeKind = .reducer := by
  cases kind <;> simp_all [UsageKind.nodeKind]

namespace ReferenceEntry

variable {reference : ReferenceEntry}

/-- Among usages of different kinds, at most one is an instantiation; so beside it there is another
one, unless the place is noise. -/
theorem exists_usage_ne_instantiate (hnodup : (reference.usages.map (·.kind)).Nodup)
    (hnoise : reference.isNoise = false) :
    ∃ usage ∈ reference.usages, usage.kind ≠ .instantiate := by
  unfold isNoise at hnoise
  match husages : reference.usages with
  | [] => simp [husages] at hnoise
  | [usage] =>
      simp only [husages, beq_eq_false_iff_ne] at hnoise
      exact ⟨usage, List.mem_singleton_self usage, hnoise⟩
  | first :: second :: rest =>
      rw [husages] at hnodup
      by_cases hfirst : first.kind = .instantiate
      · have hsecond : second.kind ≠ first.kind := by
          intro hsame
          simp [hsame] at hnodup
        exact ⟨second, by simp, hfirst ▸ hsecond⟩
      · exact ⟨first, by simp, hfirst⟩

theorem nodeKind_of_not_noise (hnodup : (reference.usages.map (·.kind)).Nodup)
    (hknown : ∀ usage ∈ reference.usages, usage.kind ≠ .unknown)
    (hnoise : reference.isNoise = false) :
    reference.dominantKind.nodeKind = .effect ∨ reference.dominantKind.nodeKind = .method ∨
      reference.dominantKind.nodeKind = .reducer := by
  obtain ⟨usage, husage, hkind⟩ := exists_usage_ne_instantiate hnodup hnoise
  obtain ⟨found, hfound⟩ := Usage.exists_dominant? husage hkind
  have hdominant : reference.dominantKind = found.kind := by
    simp [dominantKind, dominant?, hfound]
  obtain ⟨hmem, hnamed⟩ := Usage.mem_of_dominant? hfound
  rw [hdominant]
  exact UsageKind.nodeKind_of_named (hknown found hmem) hnamed

end ReferenceEntry

/-! ## Written places -/

/-- A place as it is written out, whether or not anything is left of it. -/
def exported (filters : PathFilters) (reference : ReferenceEntry) : ReferenceEntry :=
  { reference with
    filePath := filters.formatPath reference.filePath
    usages := reference.usages.filter (· ≠ .unknown) }

theorem exportReference?_eq (filters : PathFilters) (keepEmpty : Bool) (reference : ReferenceEntry) :
    exportReference? filters keepEmpty reference =
      if (exported filters reference).usages = [] ∧ keepEmpty = false then none
      else some (exported filters reference) := by
  simp [exportReference?, exported]

theorem relevant_exportAction (filters : PathFilters) (keepEmpty : Bool) (action : Action) :
    (exportAction filters keepEmpty action).relevant =
      (action.references.map (exported filters)).filter (!·.isNoise) := by
  unfold ActionEntry.relevant exportAction
  induction action.references with
  | nil => rfl
  | cons reference rest ih =>
      rw [List.filterMap_cons, exportReference?_eq, List.map_cons]
      by_cases hempty : (exported filters reference).usages = []
      · -- dropped here, or dropped as noise later
        have hnoise : (exported filters reference).isNoise = true := by
          simp [ReferenceEntry.isNoise, hempty]
        cases keepEmpty <;> simpa [hempty, hnoise] using ih
      · simp [hempty, List.filter_cons, ih]

theorem exportActions_graph (filters : PathFilters) (depth : Nat) (keepEmpty : Bool)
    (actions : List Action) :
    Graph.ofEntries depth (exportActions filters keepEmpty actions) =
      Graph.ofEntries depth (exportActions filters false actions) := by
  have hnodes : ∀ action : Action, (exportAction filters keepEmpty action).nodes depth =
      (exportAction filters false action).nodes depth := by
    intro action
    simp only [ActionEntry.nodes, relevant_exportAction]
    rfl
  have hlinks : ∀ action : Action, (exportAction filters keepEmpty action).links =
      (exportAction filters false action).links := by
    intro action
    simp only [ActionEntry.links, relevant_exportAction]
    rfl
  simp only [Graph.ofEntries, exportActions, List.flatMap_map, hnodes, hlinks]

/-! ## The graph of an analysis -/

/-- Every reference of an analysed action is a node of one of the files. -/
theorem exists_placeAt_of_analyzeTrees {trees : List Tree} {typeOf : TypeOracle}
    {filters : PathFilters} {action : Action} {reference : ReferenceEntry}
    (haction : action ∈ analyzeTrees trees typeOf filters) (hreference : reference ∈ action.references) :
    ∃ tree ∈ trees, ∃ pos, reference = tree.placeAt pos := by
  obtain ⟨index, hindex⟩ := List.mem_iff_getElem?.mp haction
  rw [analyzeTrees, Discovery.aggregate_getElem?] at hindex
  obtain ⟨found, hfound, rfl⟩ := Option.map_eq_some_iff.mp hindex
  have hbare := Discovery.run_references trees typeOf filters (List.mem_of_getElem? hfound)
  simp only [hbare, List.nil_append, Discovery.placesTo, List.mem_flatMap, List.mem_map] at hreference
  obtain ⟨tree, htree, pos, _, rfl⟩ := hreference
  exact ⟨tree, List.mem_of_mem_filter htree, pos, rfl⟩

theorem nodeKind_of_exported_placeAt {filters : PathFilters} {tree : Tree} {pos : Nat}
    (hnoise : (exported filters (tree.placeAt pos)).isNoise = false) :
    let kind := (exported filters (tree.placeAt pos)).dominantKind.nodeKind
    kind = .effect ∨ kind = .method ∨ kind = .reducer := by
  refine ReferenceEntry.nodeKind_of_not_noise ?_ ?_ hnoise
  · exact (Classification.usages_kinds_nodup tree pos).sublist (List.filter_sublist.map _)
  · intro usage husage hkind
    obtain ⟨_, hknown⟩ := List.mem_filter.mp husage
    cases usage <;> simp_all [Usage.kind]

/-- The graph of an analysis does not depend on whether places without a usage are written out, and
every node in it that is no action stands for an effect, a method or a reducer. -/
theorem analyzed_graph_has_roles (trees : List Tree) (typeOf : TypeOracle) (filters : PathFilters)
    (depth : Nat) :
    let actions := analyzeTrees trees typeOf filters
    let graph := Graph.ofEntries depth (exportActions filters true actions)
    graph = Graph.ofEntries depth (exportActions filters false actions) ∧
    (∀ node ∈ graph.nodes, node.kind ≠ .unknown) ∧
    ∀ node ∈ graph.nodes, node.kind ≠ .action →
      node.kind = .effect ∨ node.kind = .method ∨ node.kind = .reducer := by
  intro actions graph
  have hroles : ∀ node ∈ graph.nodes, node.kind ≠ .action →
      node.kind = .effect ∨ node.kind = .method ∨ node.kind = .reducer := by
    intro node hnode hkind
    rcases Graph.ofEntries_node_cases hnode with ⟨_, _, rfl⟩ | ⟨entry, hentry, written, hwritten, rfl⟩
    · exact absurd rfl hkind
    · obtain ⟨action, haction, rfl⟩ := List.mem_map.mp hentry
      rw [relevant_exportAction, List.mem_filter] at hwritten
      obtain ⟨hwritten, hnoise⟩ := hwritten
      obtain ⟨reference, hreference, rfl⟩ := List.mem_map.mp hwritten
      obtain ⟨tree, _, pos, rfl⟩ := exists_placeAt_of_analyzeTrees haction hreference
      exact nodeKind_of_exported_placeAt (by simpa using hnoise)
  refine ⟨exportActions_graph filters depth true actions, ?_, hroles⟩
  intro node hnode hunknown
  rcases hroles node hnode (by simp [hunknown]) with hkind | hkind | hkind <;>
    simp [hunknown] at hkind

end ActionAtlas
