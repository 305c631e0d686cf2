import ActionAtlas.Graph.Presentation
import ActionAtlas.Proofs.GraphBuild
import ActionAtlas.Proofs.PathQueries
import ActionAtlas.Proofs.Projection
import ActionAtlas.Proofs.Visibility

/-!
# The part of a graph under a path

In every mode, a graph reduced to a path shows the actions below the path, what they are linked
with, and the links between the two. The rule of a selection speaks of blocked ends; it comes to
this because the ids of actions divide every view of a built graph: each link has exactly one end
among them, and what carries one of them can be selected, folded or not.
-/

namespace ActionAtlas
namespace Graph

/-! ## Graphs divided by a set of ids -/

/-- Every link has exactly one end among the ids of one side, whose nodes are selectable. Nothing is
hidden. -/
structure DividedBy (graph : Graph) (side : List String) : Prop where
  selectable : ∀ node ∈ graph.nodes, node.id ∈ side → node.isSelectable = true
  one_end : ∀ link ∈ graph.links, (link.source.id ∈ side ∧ link.target.id ∉ side) ∨
    (link.source.id ∉ side ∧ link.target.id ∈ side)
  unhidden : ∀ node ∈ graph.nodes, node.hidden = false

section Divided

variable {graph : Graph} {side wanted : List String} {selection : Selection}

theorem DividedBy.blocked_eq (divided : graph.DividedBy side) (marks : selection.Marks side wanted)
    {node : Node} (h : node ∈ graph.nodes) :
    Store.blocked selection node = decide (node.id ∈ side ∧ node.id ∉ wanted) := by
  unfold Store.blocked
  rw [marks.lookup]
  by_cases hside : node.id ∈ side
  · simp [hside, divided.selectable node h hside]
  · simp [hside]

theorem DividedBy.linkOpen_eq (divided : graph.DividedBy side) (wired : graph.Wired)
    (marks : selection.Marks side wanted) {link : Link} (h : link ∈ graph.links) :
    (Store.ofGraph graph).linkOpen selection link =
      decide (link.source.id ∈ wanted ∨ link.target.id ∈ wanted) := by
  obtain ⟨source, hsource, hs⟩ := wired.source_bare link h
  obtain ⟨target, htarget, ht⟩ := wired.target_bare link h
  have hends := divided.one_end link h
  rw [Store.linkOpen_ofGraph wired hsource htarget hs ht, divided.blocked_eq marks hsource,
    divided.blocked_eq marks htarget]
  rw [hs, ht] at hends ⊢
  simp only [LinkEnd.id] at hends ⊢
  -- the end outside the side is never blocked, and never wanted either
  rcases hends with ⟨hin, hout⟩ | ⟨hout, hin⟩
  · have hnever : target.id ∉ wanted := fun hw => hout (marks.wanted_subset hw)
    simp [hin, hout, hnever]
  · have hnever : source.id ∉ wanted := fun hw => hout (marks.wanted_subset hw)
    simp [hin, hout, hnever]

theorem DividedBy.shown_iff (divided : graph.DividedBy side) (wired : graph.Wired)
    (marks : selection.Marks side wanted) {node : Node} (h : node ∈ graph.nodes) :
    (Store.ofGraph graph).hiddenBy selection node.id = false ↔
      node.id ∈ wanted ∨ ∃ link ∈ graph.links,
        (link.source.id = node.id ∧ link.target.id ∈ wanted) ∨
        (link.target.id = node.id ∧ link.source.id ∈ wanted) := by
  rw [Store.hiddenBy_eq_false_iff wired h]
  constructor
  · rintro (⟨_, hwanted⟩ | ⟨link, hlink, htouches, hopen⟩)
    · rw [marks.lookup] at hwanted
      split at hwanted
      · exact Or.inl (by simpa using hwanted)
      · exact absurd hwanted (by simp)
    · rw [divided.linkOpen_eq wired marks hlink, decide_eq_true_eq] at hopen
      simp only [Link.touches, Bool.or_eq_true, beq_iff_eq] at htouches
      rcases htouches with hid | hid <;> rcases hopen with hw | hw
      · exact Or.inl (hid ▸ hw)
      · exact Or.inr ⟨link, hlink, Or.inl ⟨hid, hw⟩⟩
      · exact Or.inr ⟨link, hlink, Or.inr ⟨hid, hw⟩⟩
      · exact Or.inl (hid ▸ hw)
  · rintro (hw | ⟨link, hlink, ⟨hid, hw⟩ | ⟨hid, hw⟩⟩)
    · have hside := marks.wanted_subset hw
      refine Or.inl ⟨divided.selectable node h hside, ?_⟩
      rw [marks.lookup, if_pos hside, List.contains_iff_mem.mpr hw]
    · refine Or.inr ⟨link, hlink, by simp [Link.touches, hid], ?_⟩
      simp [divided.linkOpen_eq wired marks hlink, hw]
    · refine Or.inr ⟨link, hlink, by simp [Link.touches, hid], ?_⟩
      simp [divided.linkOpen_eq wired marks hlink, hw]

theorem DividedBy.visibleNodes_eq (divided : graph.DividedBy side) (wired : graph.Wired)
    (marks : selection.Marks side wanted) :
    ((Store.ofGraph graph).applySelection selection).visibleNodes =
      graph.nodes.filter fun node => node.id ∈ wanted ∨ ∃ link ∈ graph.links,
        (link.source.id = node.id ∧ link.target.id ∈ wanted) ∨
        (link.target.id = node.id ∧ link.source.id ∈ wanted) := by
  rw [Store.visibleNodes_applySelection, Store.nodes_ofGraph]
  have hmap : ∀ node ∈ graph.nodes.filter fun node =>
      !(Store.ofGraph graph).hiddenBy selection node.id, { node with hidden := false } = node := by
    intro node hnode
    have hunhidden := divided.unhidden node (List.mem_filter.mp hnode).1
    cases node
    cases hunhidden
    rfl
  rw [List.map_congr_left hmap, List.map_id']
  refine List.filter_congr ?_
  intro node hnode
  rw [Bool.eq_iff_iff, Bool.not_eq_true', decide_eq_true_eq]
  exact divided.shown_iff wired marks hnode

theorem DividedBy.visibleLinks_eq (divided : graph.DividedBy side) (wired : graph.Wired)
    (marks : selection.Marks side wanted) :
    ((Store.ofGraph graph).applySelection selection).visibleLinks =
      graph.links.filter fun link => link.source.id ∈ wanted ∨ link.target.id ∈ wanted := by
  rw [Store.visibleLinks_applySelection wired]
  exact List.filter_congr fun link hlink => divided.linkOpen_eq wired marks hlink

/-- A copy of a divided store, reduced by a selection that marks one side. -/
theorem DividedBy.visibleGraph_copy {store : Store} (divided : store.toGraph.DividedBy side)
    (wired : store.toGraph.Wired) (marks : selection.Marks side wanted) :
    let shown := (store.copy.applySelection selection).visibleGraph
    shown.nodes = store.nodes.filter (fun node => node.id ∈ wanted ∨ ∃ link ∈ store.links,
      (link.source.id = node.id ∧ link.target.id ∈ wanted) ∨
      (link.target.id = node.id ∧ link.source.id ∈ wanted)) ∧
    shown.links =
      store.links.filter (fun link => link.source.id ∈ wanted ∨ link.target.id ∈ wanted) ∧
    (shown.nodes.map (·.id)).Nodup ∧
    ∀ link ∈ shown.links,
      link.source.id ∈ shown.nodes.map (·.id) ∧ link.target.id ∈ shown.nodes.map (·.id) := by
  rw [Store.copy_eq_ofGraph]
  have hnodes := divided.visibleNodes_eq wired marks
  have hnodup : (((Store.ofGraph store.toGraph).applySelection selection).visibleNodes.map
      (·.id)).Nodup := by
    rw [hnodes]
    exact wired.ids_nodup.sublist (List.filter_sublist.map _)
  exact ⟨hnodes, divided.visibleLinks_eq wired marks, hnodup,
    fun link hlink => Store.visibleLinks_closed wired hlink⟩

end Divided

/-! ## Views of a built graph -/

theorem DividedBy.part {graph part : Graph} {side : List String} (divided : graph.DividedBy side)
    (hnodes : ∀ node ∈ part.nodes, ∃ original ∈ graph.nodes, node.id = original.id ∧
      node.isSelectable = original.isSelectable ∧ node.hidden = original.hidden)
    (hlinks : part.links ⊆ graph.links) : part.DividedBy side := by
  refine ⟨?_, fun link hlink => divided.one_end link (hlinks hlink), ?_⟩
  · intro node hnode hside
    obtain ⟨original, horiginal, hid, hselectable, _⟩ := hnodes node hnode
    rw [hselectable]
    exact divided.selectable original horiginal (hid ▸ hside)
  · intro node hnode
    obtain ⟨original, horiginal, _, _, hhidden⟩ := hnodes node hnode
    rw [hhidden]
    exact divided.unhidden original horiginal

end Graph

namespace Store

theorem view_wired {graph : Graph} (wired : graph.Wired) (mode : DisplayMode) :
    ((ofGraph graph).view mode).toGraph.Wired := by
  have hbare : ((ofGraph graph).withoutReducers.nodes.map (·.id)).Sublist
      (graph.nodes.map (·.id)) := by
    simpa using ids_withoutReducers_sublist (ofGraph graph)
  cases mode with
  | reducers => simpa [view, toGraph] using wired
  | splitReducers =>
      refine wired.part ?_ ?_
      · change ((ofGraph graph).withSplitReducers.nodes.map (·.id)).Sublist _
        rw [ids_withSplitReducers]
        exact hbare
      · change (ofGraph graph).withSplitReducers.links = graph.links.filter
          (spans ((ofGraph graph).withSplitReducers.nodes.map (·.id)))
        rw [links_withSplitReducers, links_withoutReducers, ids_withSplitReducers, links_ofGraph]
  | noReducers => exact wired.part hbare (links_withoutReducers (ofGraph graph))

theorem view_divided {graph : Graph} {side : List String} (divided : graph.DividedBy side)
    (mode : DisplayMode) : ((ofGraph graph).view mode).toGraph.DividedBy side := by
  have hlinks : (ofGraph graph).withoutReducers.links ⊆ graph.links := by
    rw [links_withoutReducers, links_ofGraph]
    exact List.filter_sublist.subset
  have hnodes : (ofGraph graph).withoutReducers.nodes ⊆ graph.nodes := by
    rw [nodes_withoutReducers, nodes_ofGraph]
    exact List.filter_sublist.subset
  cases mode with
  | reducers => simpa [view, toGraph] using divided
  | splitReducers =>
      refine divided.part ?_ ?_
      · intro node hnode
        change node ∈ (ofGraph graph).withSplitReducers.nodes at hnode
        rw [nodes_withSplitReducers] at hnode
        obtain ⟨original, horiginal, rfl⟩ := List.mem_map.mp hnode
        exact ⟨original, hnodes horiginal, by simp⟩
      · change (ofGraph graph).withSplitReducers.links ⊆ graph.links
        rw [links_withSplitReducers]
        exact hlinks
  | noReducers => exact divided.part (fun node hnode => ⟨node, hnodes hnode, rfl, rfl, rfl⟩) hlinks

end Store

namespace Graph

variable {depth : Nat} {actions : List ActionEntry}

/-- The tree of a built graph knows exactly the ids of the actions. -/
theorem mem_ids_ofEntries {id : String} :
    id ∈ (ActionTree.ofStore (Store.ofGraph (ofEntries depth actions))).ids ↔
      ∃ action ∈ actions, action.id = id := by
  rw [ActionTree.mem_ids_ofStore, Store.nodes_ofGraph]
  constructor
  · rintro ⟨node, hnode, hkind, rfl⟩
    exact (ofEntries_kind_action_iff hnode).mp hkind
  · rintro ⟨action, haction, rfl⟩
    obtain ⟨node, hnode, hid⟩ := exists_action_node depth haction
    exact ⟨node, hnode, (ofEntries_kind_action_iff hnode).mpr ⟨action, haction, hid.symm⟩, hid⟩

theorem ofEntries_divided (depth : Nat) (actions : List ActionEntry) :
    (ofEntries depth actions).DividedBy
      (ActionTree.ofStore (Store.ofGraph (ofEntries depth actions))).ids := by
  refine ⟨?_, ?_, fun node hnode => (ofEntries_node_plain hnode).2⟩
  · intro node hnode hid
    have hkind := (ofEntries_kind_action_iff hnode).mpr (mem_ids_ofEntries.mp hid)
    rw [Node.isSelectable, hkind]
    rfl
  · intro link hlink
    obtain ⟨action, haction, reference, _, hends⟩ := ofEntries_link_ends hlink
    have hin : action.id ∈ (ActionTree.ofStore (Store.ofGraph (ofEntries depth actions))).ids :=
      mem_ids_ofEntries.mpr ⟨action, haction, rfl⟩
    have hout : reference.id ∉
        (ActionTree.ofStore (Store.ofGraph (ofEntries depth actions))).ids := by
      rw [mem_ids_ofEntries]
      rintro ⟨other, _, hid⟩
      exact other.id_ne_id reference hid
    rcases hends with ⟨hs, ht⟩ | ⟨hs, ht⟩
    · rw [hs, ht]
      exact Or.inr ⟨hout, hin⟩
    · rw [hs, ht]
      exact Or.inl ⟨hin, hout⟩

/-- Reduced to a known path, a built graph shows in every mode the nodes below the path and those
that share a link with one of them, and the links with an end below the path. What is shown is a
graph again: its ids are distinct and its links end in it. -/
theorem presentOnly_shows_neighbours (depth : Nat) (actions : List ActionEntry) (mode : DisplayMode)
    (path : String) (selection : Selection)
    (known : (ActionTree.ofStore (Store.ofGraph (ofEntries depth actions))).selectionFor? path =
      some selection) :
    let original := Store.ofGraph (ofEntries depth actions)
    let view := original.view mode
    let reduced := view.copy.applySelection selection
    let shown := reduced.visibleGraph
    (ofEntries depth actions).presentOnly? mode path = some reduced ∧
    ∃ ids, (ActionTree.ofStore original).idsUnder? path = some ids ∧
      shown.nodes = view.nodes.filter (fun node => node.id ∈ ids ∨ ∃ link ∈ view.links,
        (link.source.id = node.id ∧ link.target.id ∈ ids) ∨
        (link.target.id = node.id ∧ link.source.id ∈ ids)) ∧
      shown.links = view.links.filter (fun link => link.source.id ∈ ids ∨ link.target.id ∈ ids) ∧
      (shown.nodes.map (·.id)).Nodup ∧
      ∀ link ∈ shown.links,
        link.source.id ∈ shown.nodes.map (·.id) ∧ link.target.id ∈ shown.nodes.map (·.id) := by
  obtain ⟨ids, hids, _⟩ := Option.map_eq_some_iff.mp known
  have marks := ActionTree.selectionFor?_marks hids known
  have wired := Store.view_wired (ofEntries_wired depth actions) mode
  have divided := Store.view_divided (ofEntries_divided depth actions) mode
  refine ⟨?_, ids, hids, divided.visibleGraph_copy wired marks⟩
  rw [presentOnly?, known, Option.map_some, presentAll]

/-- One folder of two: the effect is shared with an action outside, which stays hidden. -/
theorem presentOnly_below_folder :
    let actions : List ActionEntry :=
      [⟨"Add", "a/x.ts", 1,
          [⟨"a/r.ts", 4, [.reducer]⟩, ⟨"c/e.ts", 7, [.effect "save", .instantiate]⟩]⟩,
        ⟨"Drop", "b/y.ts", 2, [⟨"c/e.ts", 9, [.effect "save"]⟩]⟩]
    let selection := [("Action::a/x.ts::Add", true), ("Action::b/y.ts::Drop", false)]
    let original := Store.ofGraph (ofEntries 1 actions)
    let view := original.view .splitReducers
    let shown := (view.copy.applySelection selection).visibleGraph
    (ActionTree.ofStore original).selectionFor? "a/" = some selection ∧
    shown.nodes.map (·.id) = ["Action::a/x.ts::Add", "Effect::c/e.ts::save"] ∧
    ∃ ids, (ActionTree.ofStore original).idsUnder? "a/" = some ids ∧
      shown.links = view.links.filter fun link => link.source.id ∈ ids ∨ link.target.id ∈ ids := by
  intro actions selection original view shown
  have known : (ActionTree.ofStore original).selectionFor? "a/" = some selection := by
    decide +kernel
  obtain ⟨_, ids, hids, _, hlinks, _⟩ :=
    presentOnly_shows_neighbours 1 actions .splitReducers "a/" selection known
  exact ⟨known, by decide +kernel, ids, hids, hlinks⟩

end Graph
end ActionAtlas
