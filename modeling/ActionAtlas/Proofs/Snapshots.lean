import ActionAtlas.Proofs.StoreRuns

/-!
# Snapshots of what is shown

Whether a link end is shown is asked of its own flag or of a look-up, and a look-up may lead to a retired
slot, to a node that changed its id, to one of several with the id, or nowhere. A store made from what
another one shows has other slots, so its look-ups lead elsewhere. They lead to shown nodes only: the
snapshot shows itself, whole.
-/

namespace ActionAtlas
namespace Store

/-- Why a link end is shown: its own flag, the flag of the node that its id leads to, or that its id leads
nowhere. -/
inductive EndShown (store : Store) : LinkEnd → Prop where
  | own {node : Node} (flag : node.hidden = false) : EndShown store (.bound node)
  | found {id : String} {node : Node} (lookup : store.node? id = some node)
      (flag : node.hidden = false) : EndShown store (.bare id)
  | unknown {id : String} (lookup : store.node? id = none) : EndShown store (.bare id)

theorem endHidden_eq_false_iff {store : Store} {linkEnd : LinkEnd} :
    store.endHidden linkEnd = false ↔ store.EndShown linkEnd := by
  constructor
  · intro hshown
    cases linkEnd with
    | bound node => exact .own hshown
    | bare id =>
        cases hlookup : store.node? id with
        | none => exact .unknown hlookup
        | some node =>
            have hflag : node.hidden = false := by simpa [endHidden, hlookup] using hshown
            exact .found hlookup hflag
  · intro hshown
    cases hshown with
    | own flag => exact flag
    | found lookup flag => simp [endHidden, lookup, flag]
    | unknown lookup => simp [endHidden, lookup]

theorem mem_visibleNodes {store : Store} {node : Node} :
    node ∈ store.visibleNodes ↔ node ∈ store.nodes ∧ node.hidden = false := by
  simp [visibleNodes]

theorem mem_visibleLinks {store : Store} {link : Link} :
    link ∈ store.visibleLinks ↔
      link ∈ store.links ∧ store.EndShown link.source ∧ store.EndShown link.target := by
  simp [visibleLinks, ← endHidden_eq_false_iff]

/-! ## Rebuilding -/

theorem hidden_of_lookup_rebuilt {store : Store} {id : String} {node : Node}
    (h : (ofGraph store.visibleGraph).node? id = some node) : node.hidden = false := by
  rw [ofGraph, node?_ofData] at h
  have hnode : node ∈ store.visibleNodes := List.mem_reverse.mp (List.mem_of_find?_eq_some h)
  exact (mem_visibleNodes.mp hnode).2

/-- A bare end is shown after rebuilding, whatever its id led to before. -/
theorem endShown_rebuilt_bare (store : Store) (id : String) :
    (ofGraph store.visibleGraph).EndShown (.bare id) := by
  cases hlookup : (ofGraph store.visibleGraph).node? id with
  | none => exact .unknown hlookup
  | some node => exact .found hlookup (hidden_of_lookup_rebuilt hlookup)

theorem EndShown.rebuilt {store : Store} {linkEnd : LinkEnd} (h : store.EndShown linkEnd) :
    (ofGraph store.visibleGraph).EndShown linkEnd := by
  cases h with
  | own flag => exact .own flag
  | @found id => exact store.endShown_rebuilt_bare id
  | @unknown id => exact store.endShown_rebuilt_bare id

theorem visibleNodes_rebuilt (store : Store) :
    (ofGraph store.visibleGraph).visibleNodes = store.visibleNodes := by
  rw [visibleNodes, nodes_ofGraph]
  refine List.filter_eq_self.mpr ?_
  intro node hnode
  have hflag := (mem_visibleNodes.mp hnode).2
  rw [hflag, Bool.not_false]

theorem visibleLinks_rebuilt (store : Store) :
    (ofGraph store.visibleGraph).visibleLinks = store.visibleLinks := by
  rw [visibleLinks, links_ofGraph]
  refine List.filter_eq_self.mpr ?_
  intro link hlink
  obtain ⟨_, hsource, htarget⟩ := mem_visibleLinks.mp hlink
  rw [endHidden_eq_false_iff.mpr hsource.rebuilt, endHidden_eq_false_iff.mpr htarget.rebuilt]
  rfl

/-- Any store, however it was edited: what it shows are the live nodes that are not hidden and the links
with both ends shown. A store made from that shows it again, and holds nothing else. -/
theorem visibleGraph_rebuilt (store : Store) :
    let shown := store.visibleGraph
    let rebuilt := ofGraph shown
    (∀ node, node ∈ shown.nodes ↔ node ∈ store.nodes ∧ node.hidden = false) ∧
    (∀ link, link ∈ shown.links ↔
      link ∈ store.links ∧ store.EndShown link.source ∧ store.EndShown link.target) ∧
    rebuilt.visibleGraph = shown ∧ rebuilt.toGraph = shown := by
  intro shown rebuilt
  have hvisible : rebuilt.visibleGraph = shown := by
    change Graph.mk rebuilt.visibleNodes rebuilt.visibleLinks = shown
    rw [store.visibleNodes_rebuilt, store.visibleLinks_rebuilt]
    rfl
  have hwhole : rebuilt.toGraph = shown := by
    change Graph.mk rebuilt.nodes rebuilt.links = shown
    rw [nodes_ofGraph, links_ofGraph]
  exact ⟨fun _ => mem_visibleNodes, fun _ => mem_visibleLinks, hvisible, hwhole⟩

end Store
end ActionAtlas
