import ActionAtlas.Graph.Visibility
import Mathlib.Data.List.Nodup

/-!
# What a store holds

The live nodes and the links of a store after each of its operations, so that later arguments can
speak about lists of nodes and never about slots. A graph is wired when its ids are distinct and its
links join its nodes by bare ids; in a store of a wired graph an id leads to the one node that
carries it.
-/

namespace ActionAtlas
namespace Store

/-! ## Live nodes and links -/

@[simp] theorem nodes_ofData (nodes : List Node) (links : List Link) :
    (ofData nodes links).nodes = nodes := by
  simp [ofData, Store.nodes, List.filter_map, Function.comp_def]

@[simp] theorem links_ofData (nodes : List Node) (links : List Link) :
    (ofData nodes links).links = links := rfl

theorem nodeCount_eq_length (store : Store) : store.nodeCount = store.nodes.length := by
  simp [nodeCount, Store.nodes]

@[simp] theorem nodes_ofGraph (graph : Graph) : (ofGraph graph).nodes = graph.nodes :=
  nodes_ofData graph.nodes graph.links

@[simp] theorem links_ofGraph (graph : Graph) : (ofGraph graph).links = graph.links := rfl

@[simp] theorem nodes_copy (store : Store) : store.copy.nodes = store.nodes :=
  nodes_ofData store.nodes store.links

@[simp] theorem links_copy (store : Store) : store.copy.links = store.links := rfl

theorem copy_eq_ofGraph (store : Store) : store.copy = ofGraph store.toGraph := rfl

@[simp] theorem nodes_mapNodes (store : Store) (change : Node → Node) :
    (store.mapNodes change).nodes = store.nodes.map change := by
  unfold Store.nodes mapNodes
  induction store.slots with
  | nil => rfl
  | cons slot rest ih =>
      cases hlive : slot.live with
      | false => simpa [hlive] using ih
      | true => simpa [hlive] using ih

theorem mapNodes_mapNodes (store : Store) (first second : Node → Node) :
    (store.mapNodes first).mapNodes second = store.mapNodes (second ∘ first) := by
  simp only [mapNodes, List.map_map, mk.injEq, and_true]
  refine List.map_congr_left ?_
  intro slot _
  cases hlive : slot.live <;> simp [hlive]

theorem mapNodes_congr {store : Store} {change other : Node → Node}
    (h : ∀ node ∈ store.nodes, change node = other node) :
    store.mapNodes change = store.mapNodes other := by
  rw [mapNodes, mapNodes, mk.injEq]
  refine ⟨List.map_congr_left ?_, rfl⟩
  intro slot hslot
  split
  case isTrue hlive =>
    have hnode : slot.node ∈ store.nodes :=
      List.mem_map_of_mem (List.mem_filter.mpr ⟨hslot, hlive⟩)
    rw [h slot.node hnode]
  case isFalse => rfl

@[simp] theorem links_mapNodes (store : Store) (change : Node → Node) :
    (store.mapNodes change).links = store.links := rfl

theorem exists_lastLive? {store : Store} {node : Node} (h : node ∈ store.nodes) :
    ∃ last, store.lastLive? node.id = some last ∧ last.id = node.id := by
  cases hlast : store.lastLive? node.id with
  | none =>
      have hmissed := List.find?_eq_none.mp hlast node (List.mem_reverse.mpr h)
      simp at hmissed
  | some last => exact ⟨last, rfl, by simpa using List.find?_some hlast⟩

section Unseen

-- a selection looks at ids and at who can be selected, and at nothing else of a node
variable {change : Node → Node} (hid : ∀ node, (change node).id = node.id)
  (hselectable : ∀ node, (change node).isSelectable = node.isSelectable)

include hid

theorem lastLive?_mapNodes (store : Store) (id : String) :
    (store.mapNodes change).lastLive? id = (store.lastLive? id).map change := by
  have htest : (fun node : Node => node.id == id) ∘ change = fun node => node.id == id := by
    funext node
    rw [Function.comp_apply, hid]
  rw [lastLive?, nodes_mapNodes, ← List.map_reverse, List.find?_map, htest, lastLive?]

include hselectable

theorem linkOpen_mapNodes (store : Store) (selection : Selection) (link : Link) :
    (store.mapNodes change).linkOpen selection link = store.linkOpen selection link := by
  simp [linkOpen, endOpen, lastLive?_mapNodes hid, blocked, Option.any_map, hid, hselectable]

theorem hiddenBy_mapNodes (store : Store) (selection : Selection) (id : String) :
    (store.mapNodes change).hiddenBy selection id = store.hiddenBy selection id := by
  simp [hiddenBy, linkOpen_mapNodes hid hselectable, lastLive?_mapNodes hid, Option.any_map,
    hselectable]

end Unseen

@[simp] theorem nodes_retainNodes (store : Store) (keep : Node → Bool) :
    (store.retainNodes keep).nodes = store.nodes.filter keep := by
  unfold Store.nodes retainNodes
  induction store.slots with
  | nil => rfl
  | cons slot rest ih =>
      cases hlive : slot.live with
      | false => simpa [hlive] using ih
      | true => cases hkeep : keep slot.node <;> simpa [hlive, hkeep] using ih

@[simp] theorem links_retainNodes (store : Store) (keep : Node → Bool) :
    (store.retainNodes keep).links = store.links := rfl

@[simp] theorem nodes_pruneLinks (store : Store) : store.pruneLinks.nodes = store.nodes := rfl

def spans (ids : List String) (link : Link) : Bool :=
  ids.contains link.source.id && ids.contains link.target.id

theorem spans_iff {ids : List String} {link : Link} :
    spans ids link = true ↔ link.source.id ∈ ids ∧ link.target.id ∈ ids := by
  simp [spans]

@[simp] theorem links_pruneLinks (store : Store) :
    store.pruneLinks.links = store.links.filter (spans (store.nodes.map (·.id))) := rfl

end Store

/-! ## Wired graphs -/

/-- Ids are distinct, and each end of a link is the bare id of a node. -/
structure Graph.Wired (graph : Graph) : Prop where
  ids_nodup : (graph.nodes.map (·.id)).Nodup
  source_bare : ∀ link ∈ graph.links, ∃ node ∈ graph.nodes, link.source = .bare node.id
  target_bare : ∀ link ∈ graph.links, ∃ node ∈ graph.nodes, link.target = .bare node.id

/-- What is left of a wired graph when links that lost an end are dropped is wired. -/
theorem Graph.Wired.part {graph part : Graph} (wired : graph.Wired)
    (hids : (part.nodes.map (·.id)).Sublist (graph.nodes.map (·.id)))
    (hlinks : part.links = graph.links.filter (Store.spans (part.nodes.map (·.id)))) :
    part.Wired := by
  have hends : ∀ link ∈ part.links, link ∈ graph.links ∧
      link.source.id ∈ part.nodes.map (·.id) ∧ link.target.id ∈ part.nodes.map (·.id) := by
    intro link hlink
    rw [hlinks, List.mem_filter, Store.spans_iff] at hlink
    exact hlink
  refine ⟨wired.ids_nodup.sublist hids, ?_, ?_⟩
  · intro link hlink
    obtain ⟨hgraph, hsource, _⟩ := hends link hlink
    obtain ⟨_, _, hs⟩ := wired.source_bare link hgraph
    obtain ⟨node, hnode, hid⟩ := List.mem_map.mp hsource
    exact ⟨node, hnode, by rw [hid, hs, LinkEnd.id]⟩
  · intro link hlink
    obtain ⟨hgraph, _, htarget⟩ := hends link hlink
    obtain ⟨_, _, ht⟩ := wired.target_bare link hgraph
    obtain ⟨node, hnode, hid⟩ := List.mem_map.mp htarget
    exact ⟨node, hnode, by rw [hid, ht, LinkEnd.id]⟩

/-- Among nodes with distinct ids, a search from the end for the id of a node finds that node. -/
theorem find?_reverse_id {nodes : List Node} (hnodup : (nodes.map (·.id)).Nodup) {node : Node}
    (h : node ∈ nodes) : nodes.reverse.find? (·.id == node.id) = some node := by
  cases hfound : nodes.reverse.find? (·.id == node.id) with
  | none =>
      have hmissed := List.find?_eq_none.mp hfound node (List.mem_reverse.mpr h)
      simp at hmissed
  | some other =>
      have hother : other ∈ nodes := List.mem_reverse.mp (List.mem_of_find?_eq_some hfound)
      have hid : other.id = node.id := by simpa using List.find?_some hfound
      rw [List.inj_on_of_nodup_map hnodup hother h hid]

namespace Store

theorem lastLive?_ofGraph {graph : Graph} (wired : graph.Wired) {node : Node}
    (h : node ∈ graph.nodes) : (ofGraph graph).lastLive? node.id = some node := by
  unfold lastLive?
  rw [nodes_ofGraph]
  exact find?_reverse_id wired.ids_nodup h

/-- Slots keep the ids that their nodes had, whatever is changed about the nodes. -/
theorem node?_mapNodes_ofGraph (graph : Graph) (change : Node → Node) (id : String) :
    ((ofGraph graph).mapNodes change).node? id =
      (graph.nodes.reverse.find? (·.id == id)).map change := by
  simp [node?, mapNodes, ofGraph, ofData, ← List.map_reverse, List.find?_map, Function.comp_def]

end Store
end ActionAtlas
