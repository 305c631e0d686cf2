import ActionAtlas.Graph.Presentation
import ActionAtlas.Graph.Statistics
import ActionAtlas.Proofs.GraphBuild
import ActionAtlas.Proofs.Projection

/-!
# Names of reducers

The depth of names enters a graph in one place only, the names of its reducers: the graphs of one
analysis for two depths are each other with the reducers renamed. Nothing that is done with a graph
later on looks at a name, so the two stay in step through the views, the tree of actions and the
selections; and once the reducers are gone they are equal.
-/

namespace ActionAtlas

/-- A reducer with the name that its path gives it; any other node as it is. -/
def Node.renamed (depth : Nat) (node : Node) : Node :=
  if node.kind = .reducer then { node with name := reducerDisplayName node.filePath depth } else node

def Graph.renamed (depth : Nat) (graph : Graph) : Graph :=
  { graph with nodes := graph.nodes.map (Node.renamed depth) }

namespace Node

variable (depth : Nat) (node : Node)

@[simp] theorem renamed_id : (node.renamed depth).id = node.id := by
  unfold renamed
  split <;> rfl

@[simp] theorem renamed_kind : (node.renamed depth).kind = node.kind := by
  unfold renamed
  split <;> rfl

@[simp] theorem renamed_filePath : (node.renamed depth).filePath = node.filePath := by
  unfold renamed
  split <;> rfl

@[simp] theorem renamed_hidden : (node.renamed depth).hidden = node.hidden := by
  unfold renamed
  split <;> rfl

@[simp] theorem renamed_isSelectable : (node.renamed depth).isSelectable = node.isSelectable := by
  simp [isSelectable]

theorem renamed_setHidden (hidden : Bool) :
    { node.renamed depth with hidden := hidden } =
      ({ node with hidden := hidden } : Node).renamed depth := by
  unfold renamed
  split <;> rfl

theorem renamed_of_kind_ne (h : node.kind ≠ .reducer) : node.renamed depth = node := if_neg h

end Node

/-! ## Built graphs -/

theorem ActionEntry.toNode_renamed (action : ActionEntry) (depth : Nat) :
    action.toNode.renamed depth = action.toNode :=
  Node.renamed_of_kind_ne depth _ (by simp)

theorem ReferenceEntry.toNode_renamed (reference : ReferenceEntry) (shallow deep : Nat) :
    (reference.toNode shallow).renamed deep = reference.toNode deep := by
  have hkind : (reference.toNode shallow).kind = .reducer ↔ reference.dominantKind = .reducer :=
    UsageKind.nodeKind_eq_reducer_iff
  unfold Node.renamed
  by_cases h : reference.dominantKind = .reducer
  · rw [if_pos (hkind.mpr h)]
    simp [ReferenceEntry.toNode, ReferenceEntry.displayName, h]
  · rw [if_neg (mt hkind.mp h)]
    simp [ReferenceEntry.toNode, ReferenceEntry.displayName, h]

/-- Which of several places stands for an id is settled by ids alone, so the graph for one depth is
the graph for any other with its reducers renamed. -/
theorem Graph.ofEntries_renamed (shallow deep : Nat) (actions : List ActionEntry) :
    (ofEntries shallow actions).renamed deep = ofEntries deep actions := by
  have hnodes : (actions.flatMap (·.nodes shallow)).map (Node.renamed deep) =
      actions.flatMap (·.nodes deep) := by
    simp [ActionEntry.nodes, List.map_flatMap, Function.comp_def, ActionEntry.toNode_renamed,
      ReferenceEntry.toNode_renamed]
  have hfirsts : firstsBy Node.id ((actions.flatMap (·.nodes shallow)).map (Node.renamed deep)) =
      (firstsBy Node.id (actions.flatMap (·.nodes shallow))).map (Node.renamed deep) :=
    firstsBy_map (Node.renamed_id deep) _
  rw [hnodes] at hfirsts
  unfold Graph.renamed
  rw [Graph.mk.injEq]
  exact ⟨hfirsts.symm, rfl⟩

/-! ## Stores and what is done with them -/

namespace Store

variable (store : Store) (depth : Nat)

theorem ofGraph_renamed (graph : Graph) :
    ofGraph (graph.renamed depth) = (ofGraph graph).mapNodes (Node.renamed depth) := by
  simp [ofGraph, ofData, mapNodes, Graph.renamed, Function.comp_def]

theorem copy_renamed :
    (store.mapNodes (Node.renamed depth)).copy = store.copy.mapNodes (Node.renamed depth) := by
  rw [copy_eq_ofGraph, copy_eq_ofGraph, ← ofGraph_renamed]
  simp [toGraph, Graph.renamed]

theorem actionTree_renamed :
    ActionTree.ofStore (store.mapNodes (Node.renamed depth)) = ActionTree.ofStore store := by
  simp [ActionTree.ofStore, List.filter_map, List.foldl_map, Function.comp_def]

theorem statistics_renamed :
    Statistics.ofStore (store.mapNodes (Node.renamed depth)) = Statistics.ofStore store := by
  unfold Statistics.ofStore Statistics.countKind
  simp [nodeCount_eq_length, List.countP_map, Function.comp_def]

/-! ### Visibility -/

theorem endHidden_renamed (linkEnd : LinkEnd) :
    (store.mapNodes (Node.renamed depth)).endHidden linkEnd = store.endHidden linkEnd := by
  cases linkEnd with
  | bound node => rfl
  | bare id =>
      simp only [endHidden, node?, mapNodes]
      rw [← List.map_reverse, List.find?_map]
      have hkey : ((fun slot : Slot => slot.key == id) ∘ fun slot : Slot =>
          if slot.live then { slot with node := slot.node.renamed depth } else slot) =
          fun slot => slot.key == id := by
        funext slot
        cases hlive : slot.live <;> simp [hlive]
      rw [hkey]
      cases store.slots.reverse.find? (·.key == id) with
      | none => rfl
      | some slot => cases hlive : slot.live <;> simp [hlive]

theorem visibleGraph_renamed :
    (store.mapNodes (Node.renamed depth)).visibleGraph = store.visibleGraph.renamed depth := by
  unfold visibleGraph Graph.renamed
  rw [Graph.mk.injEq]
  constructor
  · simp [visibleNodes, List.filter_map, Function.comp_def]
  · simp only [visibleLinks, endHidden_renamed, links_mapNodes]

theorem applySelection_renamed (selection : Selection) :
    (store.mapNodes (Node.renamed depth)).applySelection selection =
      (store.applySelection selection).mapNodes (Node.renamed depth) := by
  unfold applySelection
  rw [mapNodes_mapNodes, mapNodes_mapNodes]
  congr 1
  funext node
  have hflag : (store.mapNodes (Node.renamed depth)).hiddenBy selection (node.renamed depth).id =
      store.hiddenBy selection node.id := by
    rw [hiddenBy_mapNodes (Node.renamed_id depth) (Node.renamed_isSelectable depth),
      Node.renamed_id]
  rw [Function.comp_apply, Function.comp_apply, hflag]
  exact node.renamed_setHidden depth _

/-! ### Views without reducers -/

theorem nodes_withoutReducers_renamed :
    (store.mapNodes (Node.renamed depth)).withoutReducers.nodes = store.withoutReducers.nodes := by
  rw [nodes_withoutReducers, nodes_withoutReducers, nodes_mapNodes, List.filter_map]
  simp only [Function.comp_def, Node.renamed_kind]
  have hsame : ∀ node ∈ store.nodes.filter (!·.kind == .reducer), node.renamed depth = node := by
    intro node hnode
    exact node.renamed_of_kind_ne depth (by simpa using (List.mem_filter.mp hnode).2)
  rw [List.map_congr_left hsame, List.map_id']

theorem links_withoutReducers_renamed :
    (store.mapNodes (Node.renamed depth)).withoutReducers.links = store.withoutReducers.links := by
  rw [links_withoutReducers, nodes_withoutReducers_renamed, links_mapNodes, ← links_withoutReducers]

theorem nodes_withSplitReducers_renamed :
    (store.mapNodes (Node.renamed depth)).withSplitReducers.nodes =
      store.withSplitReducers.nodes := by
  have hids : (store.mapNodes (Node.renamed depth)).reducerIds = store.reducerIds := by
    simp [reducerIds, List.filter_map, Function.comp_def]
  rw [nodes_withSplitReducers, nodes_withoutReducers_renamed, hids, links_mapNodes,
    ← nodes_withSplitReducers]

/-- Retired slots still tell the names of reducers apart; a copy forgets them. -/
theorem copy_view_renamed {mode : DisplayMode} (h : mode ≠ .reducers) :
    ((store.mapNodes (Node.renamed depth)).view mode).copy = (store.view mode).copy := by
  cases mode with
  | reducers => exact absurd rfl h
  | splitReducers =>
      simp only [view, copy, nodes_withSplitReducers_renamed, links_withSplitReducers,
        links_withoutReducers_renamed]
  | noReducers =>
      simp only [view, copy, nodes_withoutReducers_renamed, links_withoutReducers_renamed]

end Store

/-! ## Presented graphs -/

namespace Graph

variable (graph : Graph) (depth : Nat)

theorem presentAll_renamed :
    (graph.renamed depth).presentAll .reducers =
      (graph.presentAll .reducers).mapNodes (Node.renamed depth) := by
  rw [presentAll, Store.ofGraph_renamed]
  exact Store.copy_renamed (Store.ofGraph graph) depth

theorem presentAll_renamed_eq {mode : DisplayMode} (h : mode ≠ .reducers) :
    (graph.renamed depth).presentAll mode = graph.presentAll mode := by
  rw [presentAll, Store.ofGraph_renamed]
  exact Store.copy_view_renamed (Store.ofGraph graph) depth h

theorem selectionFor?_renamed (path : String) :
    (ActionTree.ofStore (Store.ofGraph (graph.renamed depth))).selectionFor? path =
      (ActionTree.ofStore (Store.ofGraph graph)).selectionFor? path := by
  rw [Store.ofGraph_renamed, Store.actionTree_renamed]

theorem present?_renamed (only : Option String) :
    (graph.renamed depth).present? .reducers only =
      (graph.present? .reducers only).map (·.mapNodes (Node.renamed depth)) := by
  cases only with
  | none => exact congrArg some (presentAll_renamed graph depth)
  | some path =>
      simp only [present?, presentOnly?, selectionFor?_renamed, presentAll_renamed]
      rw [Option.map_map]
      congr 1
      funext selection
      exact Store.applySelection_renamed _ depth selection

theorem present?_renamed_eq {mode : DisplayMode} (h : mode ≠ .reducers) (only : Option String) :
    (graph.renamed depth).present? mode only = graph.present? mode only := by
  cases only with
  | none => exact congrArg some (presentAll_renamed_eq graph depth h)
  | some path =>
      simp only [present?, presentOnly?, selectionFor?_renamed, presentAll_renamed_eq graph depth h]

/-- The depth of names decides how reducers are called and nothing else. It has no say in which paths
are known and in how many nodes and links of which kind are counted; without reducer nodes the same
graph is shown; and with them the shown graphs differ in the names of the reducers, which are the
tails of their paths. -/
theorem present?_depth (shallow deep : Nat) (actions : List ActionEntry) (only : Option String) :
    let shown (depth : Nat) (mode : DisplayMode) := (ofEntries depth actions).present? mode only
    (∀ mode, (shown shallow mode).isSome = (shown deep mode).isSome ∧
      (shown shallow mode).map Statistics.ofStore = (shown deep mode).map Statistics.ofStore) ∧
    (∀ mode, mode ≠ .reducers →
      (shown shallow mode).map (·.visibleGraph) = (shown deep mode).map (·.visibleGraph)) ∧
    (shown deep .reducers).map (·.visibleGraph) =
      (shown shallow .reducers).map (·.visibleGraph.renamed deep) := by
  intro shown
  have hkept : ∀ mode, mode ≠ .reducers → shown deep mode = shown shallow mode := by
    intro mode hmode
    have h := present?_renamed_eq (ofEntries shallow actions) deep hmode only
    rwa [ofEntries_renamed] at h
  have hrenamed : shown deep .reducers =
      (shown shallow .reducers).map (·.mapNodes (Node.renamed deep)) := by
    have h := present?_renamed (ofEntries shallow actions) deep only
    rwa [ofEntries_renamed] at h
  refine ⟨?_, ?_, ?_⟩
  · intro mode
    by_cases hmode : mode = .reducers
    · subst hmode
      rw [hrenamed, Option.isSome_map, Option.map_map]
      simp [Function.comp_def, Store.statistics_renamed]
    · rw [hkept mode hmode]
      exact ⟨rfl, rfl⟩
  · intro mode hmode
    rw [hkept mode hmode]
  · rw [hrenamed, Option.map_map]
    simp only [Function.comp_def, Store.visibleGraph_renamed]

end Graph
end ActionAtlas
