import ActionAtlas.Graph.Projection
import ActionAtlas.Proofs.StoreView
import Mathlib.Data.List.Forall2

/-!
# Projections side by side

Leaving reducers out and folding them into actions keep the same nodes and the same links, in every
store: repeated ids, retired slots, loose links and bound ends included. They differ in the actions
that feed a reducer, and only there. What folding does to one node is the relation `Store.Folded`.
-/

namespace ActionAtlas
namespace Store

/-! ## Feeding a reducer -/

def Feeds (store : Store) (id : String) (link : Link) : Prop :=
  link.source.id = id ∧
    ∃ reducer ∈ store.nodes, reducer.kind = .reducer ∧ reducer.id = link.target.id

/-- The earliest link of the store by which the nodes with an id feed a live reducer. -/
def FeedsFirst (store : Store) (id : String) (link : Link) : Prop :=
  store.Feeds id link ∧
    ∃ before after, store.links = before ++ link :: after ∧
      ∀ earlier ∈ before, ¬ store.Feeds id earlier

inductive Folded (store : Store) (node : Node) : Node → Prop where
  | fed (link : Link) (isAction : node.kind = .action) (first : store.FeedsFirst node.id link) :
      Folded store node { node with kind := .reducer, reducer := some link.target.id }
  | unfed (isAction : node.kind = .action)
      (never : ∀ link ∈ store.links, ¬ store.Feeds node.id link) : Folded store node node
  | other (notAction : node.kind ≠ .action) : Folded store node node

theorem mem_reducerIds {store : Store} {id : String} :
    id ∈ store.reducerIds ↔ ∃ reducer ∈ store.nodes, reducer.kind = .reducer ∧ reducer.id = id := by
  simp [reducerIds, and_assoc]

private theorem feeds_iff {store : Store} {id : String} {link : Link} :
    (link.source.id == id && store.reducerIds.contains link.target.id) = true ↔
      store.Feeds id link := by
  rw [Bool.and_eq_true, beq_iff_eq, List.contains_iff_mem, mem_reducerIds, Feeds]

theorem feedingLink?_eq_some_iff {store : Store} {id : String} {link : Link} :
    feedingLink? store.links store.reducerIds id = some link ↔ store.FeedsFirst id link := by
  unfold feedingLink? FeedsFirst
  rw [List.find?_eq_some_iff_append]
  simp only [feeds_iff, Bool.not_eq_true', ← Bool.not_eq_true]

theorem feedingLink?_eq_none_iff {store : Store} {id : String} :
    feedingLink? store.links store.reducerIds id = none ↔
      ∀ link ∈ store.links, ¬ store.Feeds id link := by
  unfold feedingLink?
  rw [List.find?_eq_none]
  simp only [feeds_iff]

theorem folded_foldReducer (store : Store) (node : Node) :
    store.Folded node (foldReducer store.links store.reducerIds node) := by
  unfold foldReducer
  by_cases hkind : node.kind = .action
  · rw [if_pos hkind]
    cases hlink : feedingLink? store.links store.reducerIds node.id with
    | none => exact .unfed hkind (feedingLink?_eq_none_iff.mp hlink)
    | some link => exact .fed link hkind (feedingLink?_eq_some_iff.mp hlink)
  · rw [if_neg hkind]
    exact .other hkind

/-! ## Nodes and links of the projections -/

theorem nodes_withoutReducers (store : Store) :
    store.withoutReducers.nodes = store.nodes.filter (!·.kind == .reducer) := by
  simp [withoutReducers]

theorem ids_withoutReducers_sublist (store : Store) :
    (store.withoutReducers.nodes.map (·.id)).Sublist (store.nodes.map (·.id)) := by
  rw [nodes_withoutReducers]
  exact List.filter_sublist.map _

theorem links_withoutReducers (store : Store) :
    store.withoutReducers.links =
      store.links.filter (spans (store.withoutReducers.nodes.map (·.id))) := by
  simp [withoutReducers]

theorem nodes_withSplitReducers (store : Store) :
    store.withSplitReducers.nodes =
      store.withoutReducers.nodes.map (foldReducer store.links store.reducerIds) := by
  simp [withSplitReducers, withoutReducers, reducerIds]

@[simp] theorem foldReducer_id (links : List Link) (reducers : List String) (node : Node) :
    (foldReducer links reducers node).id = node.id := by
  unfold foldReducer
  split
  · split <;> rfl
  · rfl

@[simp] theorem foldReducer_hidden (links : List Link) (reducers : List String) (node : Node) :
    (foldReducer links reducers node).hidden = node.hidden := by
  unfold foldReducer
  split
  · split <;> rfl
  · rfl

/-- Folding turns one selectable kind into the other. -/
@[simp] theorem foldReducer_isSelectable (links : List Link) (reducers : List String)
    (node : Node) : (foldReducer links reducers node).isSelectable = node.isSelectable := by
  unfold foldReducer
  split
  case isTrue hkind => split <;> simp [Node.isSelectable, hkind]
  case isFalse => rfl

theorem ids_withSplitReducers (store : Store) :
    store.withSplitReducers.nodes.map (·.id) = store.withoutReducers.nodes.map (·.id) := by
  simp [nodes_withSplitReducers, Function.comp_def]

/-- Folding keeps ids, so the same links lose an end. -/
theorem links_withSplitReducers (store : Store) :
    store.withSplitReducers.links = store.withoutReducers.links := by
  have hlinks : store.withSplitReducers.links =
      store.links.filter (spans (store.withSplitReducers.nodes.map (·.id))) := by
    simp [withSplitReducers]
  rw [hlinks, ids_withSplitReducers, links_withoutReducers]

theorem withoutReducers_twice (store : Store) :
    store.withoutReducers.withoutReducers.toGraph = store.withoutReducers.toGraph := by
  have hnodes : store.withoutReducers.withoutReducers.nodes = store.withoutReducers.nodes := by
    rw [nodes_withoutReducers store.withoutReducers, nodes_withoutReducers, List.filter_filter]
    simp
  have hlinks : store.withoutReducers.withoutReducers.links = store.withoutReducers.links := by
    rw [links_withoutReducers store.withoutReducers, hnodes, links_withoutReducers,
      List.filter_filter]
    simp
  simp only [toGraph, hnodes, hlinks]

/-- Both projections of any store: which nodes and links stay, in order, and what folding changes.
-/
theorem projections_agree (store : Store) :
    let bare := store.withoutReducers
    let split := store.withSplitReducers
    bare.nodes = store.nodes.filter (fun node => node.kind ≠ .reducer) ∧
    bare.links = store.links.filter (fun link =>
      link.source.id ∈ bare.nodes.map (·.id) ∧ link.target.id ∈ bare.nodes.map (·.id)) ∧
    split.links = bare.links ∧
    List.Forall₂ store.Folded bare.nodes split.nodes ∧
    bare.withoutReducers.toGraph = bare.toGraph := by
  refine ⟨?_, ?_, links_withSplitReducers store, ?_, withoutReducers_twice store⟩
  · rw [nodes_withoutReducers]
    exact List.filter_congr fun node _ => by cases node.kind <;> rfl
  · rw [links_withoutReducers]
    exact List.filter_congr fun link _ => by simp [spans]
  · rw [nodes_withSplitReducers, List.forall₂_map_right_iff, List.forall₂_same]
    exact fun node _ => folded_foldReducer store node

end Store
end ActionAtlas
