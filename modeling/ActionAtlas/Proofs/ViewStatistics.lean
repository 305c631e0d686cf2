import ActionAtlas.Graph.DisplayMode
import ActionAtlas.Graph.Statistics
import ActionAtlas.Proofs.Projection

/-!
# Counts of the views of a graph

Every live node is counted under one kind and is either shown or hidden. The projections drop reducers
and the links that these leave behind, and nothing else; folding moves an action from one selectable
kind to the other. So the counts of the three views of a store determine each other up to the number of
folded actions.
-/

namespace ActionAtlas

/-! ## Counting nodes -/

theorem length_eq_kinds (nodes : List Node) :
    nodes.length =
      nodes.countP (·.kind == .action) + nodes.countP (·.kind == .effect) +
        nodes.countP (·.kind == .method) + nodes.countP (·.kind == .reducer) +
        nodes.countP (·.kind == .unknown) := by
  induction nodes with
  | nil => rfl
  | cons node rest ih =>
      -- one of the five counts grows with the list, and the other four stay
      cases hkind : node.kind <;> simp [hkind] <;> omega

theorem countP_isSelectable (nodes : List Node) :
    nodes.countP (·.isSelectable) =
      nodes.countP (·.kind == .action) + nodes.countP (·.kind == .reducer) := by
  induction nodes with
  | nil => rfl
  | cons node rest ih =>
      cases hkind : node.kind <;> simp [Node.isSelectable, hkind] at ih ⊢ <;> omega

namespace Statistics

theorem nodeCount_ofStore (store : Store) :
    let counted := ofStore store
    counted.nodeCount =
      counted.actions + counted.effects + counted.methods + counted.reducers + counted.unknown := by
  intro counted
  have hlength : counted.nodeCount = store.nodes.length := store.nodeCount_eq_length
  exact hlength.trans (length_eq_kinds store.nodes)

theorem visible_add_hidden (store : Store) :
    store.visibleNodes.length + (ofStore store).hidden = (ofStore store).nodeCount := by
  have hlength : (ofStore store).nodeCount = store.nodes.length := store.nodeCount_eq_length
  have hsplit := List.length_eq_countP_add_countP (fun node : Node => node.hidden) (l := store.nodes)
  have hvisible : store.visibleNodes.length = store.nodes.countP (!·.hidden) :=
    List.countP_eq_length_filter.symm
  have hhidden : (ofStore store).hidden = store.nodes.countP (·.hidden) := rfl
  simp only [Bool.not_eq_true, Bool.decide_eq_false] at hsplit
  omega

end Statistics

/-! ## Counting projections -/

namespace Store

open Statistics

theorem countKind_withoutReducers_reducer (store : Store) :
    countKind store.withoutReducers .reducer = 0 := by
  rw [countKind, nodes_withoutReducers, List.countP_eq_zero]
  intro node hnode
  simpa using (List.mem_filter.mp hnode).2

theorem countKind_withoutReducers (store : Store) {kind : NodeKind} (h : kind ≠ .reducer) :
    countKind store.withoutReducers kind = countKind store kind := by
  rw [countKind, countKind, nodes_withoutReducers, List.countP_filter]
  refine List.countP_congr fun node _ => ?_
  have hkept : node.kind = kind → node.kind ≠ .reducer := fun hkind => hkind ▸ h
  simpa using hkept

theorem foldReducer_kind_iff (links : List Link) (reducers : List String) (node : Node)
    {kind : NodeKind} (haction : kind ≠ .action) (hreducer : kind ≠ .reducer) :
    (foldReducer links reducers node).kind = kind ↔ node.kind = kind := by
  unfold foldReducer
  by_cases hkind : node.kind = .action
  · rw [if_pos hkind]
    split <;> simp [hkind, haction.symm, hreducer.symm]
  · rw [if_neg hkind]

/-- Of the kinds that no selection speaks about, both projections keep every node. -/
theorem countKind_projections (store : Store) {kind : NodeKind} (haction : kind ≠ .action)
    (hreducer : kind ≠ .reducer) :
    countKind store.withSplitReducers kind = countKind store kind ∧
      countKind store.withoutReducers kind = countKind store kind := by
  have hbare := store.countKind_withoutReducers hreducer
  refine ⟨?_, hbare⟩
  rw [← hbare, countKind, countKind, nodes_withSplitReducers, List.countP_map]
  refine List.countP_congr fun node _ => ?_
  simpa using foldReducer_kind_iff store.links store.reducerIds node haction hreducer

/-- Folding turns actions into reducers, so the two kinds are conserved together. -/
theorem countKind_withSplitReducers_selectable (store : Store) :
    countKind store.withSplitReducers .action + countKind store.withSplitReducers .reducer =
      countKind store .action := by
  have hfolded : store.withSplitReducers.nodes.countP (·.isSelectable) =
      store.withoutReducers.nodes.countP (·.isSelectable) := by
    rw [nodes_withSplitReducers, List.countP_map]
    exact List.countP_congr fun node _ => by simp
  rw [countP_isSelectable, countP_isSelectable] at hfolded
  have hactions : countKind store.withoutReducers .action = countKind store .action :=
    store.countKind_withoutReducers (by decide)
  have hreducers := store.countKind_withoutReducers_reducer
  unfold countKind at hactions hreducers ⊢
  omega

theorem hidden_withSplitReducers (store : Store) :
    (ofStore store.withSplitReducers).hidden = (ofStore store.withoutReducers).hidden := by
  change store.withSplitReducers.nodes.countP (·.hidden) = _
  rw [nodes_withSplitReducers, List.countP_map]
  exact List.countP_congr fun node _ => by simp

theorem hidden_withoutReducers_le (store : Store) :
    (ofStore store.withoutReducers).hidden ≤ (ofStore store).hidden := by
  change store.withoutReducers.nodes.countP (·.hidden) ≤ store.nodes.countP (·.hidden)
  rw [nodes_withoutReducers]
  exact List.filter_sublist.countP_le

theorem linkCount_withoutReducers_le (store : Store) :
    (ofStore store.withoutReducers).linkCount ≤ (ofStore store).linkCount := by
  change store.withoutReducers.links.length ≤ store.links.length
  rw [links_withoutReducers]
  exact List.length_filter_le _ _

/-- The counts of the three views of any store. Within a view, kinds add up to the nodes, and so do
shown and hidden ones. Between the views, only reducers and links that lose an end disappear. -/
theorem view_counts (store : Store) :
    let whole := ofStore (store.view .reducers)
    let split := ofStore (store.view .splitReducers)
    let bare := ofStore (store.view .noReducers)
    (∀ mode,
      let view := store.view mode
      let counted := ofStore view
      counted.nodeCount =
        counted.actions + counted.effects + counted.methods + counted.reducers + counted.unknown ∧
      view.visibleNodes.length + counted.hidden = counted.nodeCount) ∧
    split.nodeCount + whole.reducers = whole.nodeCount ∧
    bare.nodeCount + whole.reducers = whole.nodeCount ∧
    bare.reducers = 0 ∧
    split.actions + split.reducers = whole.actions ∧ bare.actions = whole.actions ∧
    (split.effects = whole.effects ∧ bare.effects = whole.effects) ∧
    (split.methods = whole.methods ∧ bare.methods = whole.methods) ∧
    (split.unknown = whole.unknown ∧ bare.unknown = whole.unknown) ∧
    split.hidden = bare.hidden ∧ bare.hidden ≤ whole.hidden ∧
    split.linkCount = bare.linkCount ∧ bare.linkCount ≤ whole.linkCount := by
  intro whole split bare
  have hwhole : whole.nodeCount = whole.actions + whole.effects + whole.methods + whole.reducers +
      whole.unknown := nodeCount_ofStore store
  have hsplit : split.nodeCount = split.actions + split.effects + split.methods + split.reducers +
      split.unknown := nodeCount_ofStore store.withSplitReducers
  have hbare : bare.nodeCount = bare.actions + bare.effects + bare.methods + bare.reducers +
      bare.unknown := nodeCount_ofStore store.withoutReducers
  have hreducers : bare.reducers = 0 := store.countKind_withoutReducers_reducer
  have hfolded : split.actions + split.reducers = whole.actions :=
    store.countKind_withSplitReducers_selectable
  have hactions : bare.actions = whole.actions := store.countKind_withoutReducers (by decide)
  have heffects : split.effects = whole.effects ∧ bare.effects = whole.effects :=
    store.countKind_projections (by decide) (by decide)
  have hmethods : split.methods = whole.methods ∧ bare.methods = whole.methods :=
    store.countKind_projections (by decide) (by decide)
  have hunknown : split.unknown = whole.unknown ∧ bare.unknown = whole.unknown :=
    store.countKind_projections (by decide) (by decide)
  have hlinks : split.linkCount = bare.linkCount :=
    congrArg List.length store.links_withSplitReducers
  refine ⟨?_, by omega, by omega, hreducers, hfolded, hactions, heffects, hmethods, hunknown,
    store.hidden_withSplitReducers, store.hidden_withoutReducers_le, hlinks,
    store.linkCount_withoutReducers_le⟩
  intro mode
  exact ⟨nodeCount_ofStore (store.view mode), visible_add_hidden (store.view mode)⟩

end Store
end ActionAtlas
