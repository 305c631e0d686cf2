import ActionAtlas.Proofs.StoreRuns

/-!
# Flags are forgotten

A selection can be made in passes: one that flags the blocked nodes, one that reads off these flags
which links are open, and one that takes for every node what its id got. All flags that are read were
set by the pass before. So it does not matter which flags a store had, set one by one or by other
selections, even if ids are shared, links lead nowhere or slots are retired. Nothing but flags of live
nodes is touched.
-/

namespace ActionAtlas

def Node.unflagged (node : Node) : Node := { node with hidden := false }

def Graph.unflagged (graph : Graph) : Graph :=
  { graph with nodes := graph.nodes.map Node.unflagged }

/-- What setting flags leaves of a slot: everything but the flag, and a retired slot altogether. -/
structure Slot.Reflagged (before after : Slot) : Prop where
  key : after.key = before.key
  live : after.live = before.live
  node : after.node.unflagged = before.node.unflagged
  retired : before.live = false → after = before

namespace Store

inductive FlagEdit where
  | setFound (key : String) (hidden : Bool)
  | showAll
  | select (selection : Selection)

def FlagEdit.toEdit : FlagEdit → Edit
  | .setFound key hidden => .changeFound key fun node => { node with hidden := hidden }
  | .showAll => .showAll
  | .select selection => .select selection

/-! ## Selecting in passes -/

def flagBlocked (store : Store) (selection : Selection) : Store :=
  store.mapNodes fun node => { node with hidden := blocked selection node }

/-- Whether the flags of a store show a link end, which has to be the id of a live node. -/
def endFlaggedShown (store : Store) (linkEnd : LinkEnd) : Bool :=
  (store.lastLive? linkEnd.id).any (!·.hidden)

def shownAtLinks (store : Store) : List String :=
  (store.links.filter fun link =>
    store.endFlaggedShown link.source && store.endFlaggedShown link.target).flatMap
      fun link => [link.source.id, link.target.id]

/-- What an id gets when no link speaks for it; of nodes that share an id, the last one decides. -/
def unlinkedFlags (store : Store) (selection : Selection) : List (String × Bool) :=
  store.nodes.reverse.map fun node =>
    (node.id, !(node.isSelectable && selection.lookup node.id == some true))

/-- What every id gets, read off the flags of a store. An id at a link comes first. -/
def flagTable (store : Store) (selection : Selection) : List (String × Bool) :=
  store.shownAtLinks.map (fun id => (id, false)) ++ store.unlinkedFlags selection

/-- A selection in passes. A node whose id is not in the table keeps its flag. -/
def selectInPasses (store : Store) (selection : Selection) : Store :=
  let flagged := store.flagBlocked selection
  let table := flagged.flagTable selection
  flagged.mapNodes fun node => { node with hidden := (table.lookup node.id).getD node.hidden }

theorem lookup_map_eq_find? {α β : Type} (key : α → String) (value : α → β) (items : List α)
    (id : String) :
    (items.map fun item => (key item, value item)).lookup id =
      (items.find? (key · == id)).map value := by
  induction items with
  | nil => rfl
  | cons item rest ih =>
      rw [List.map_cons, List.lookup_cons, List.find?_cons, BEq.comm]
      cases key item == id with
      | true => rfl
      | false => exact ih

theorem lastLive?_flagBlocked (store : Store) (selection : Selection) (id : String) :
    (store.flagBlocked selection).lastLive? id = (store.lastLive? id).map fun node =>
      { node with hidden := blocked selection node } := by
  apply lastLive?_mapNodes
  exact fun _ => rfl

theorem endFlaggedShown_flagBlocked (store : Store) (selection : Selection) (linkEnd : LinkEnd) :
    (store.flagBlocked selection).endFlaggedShown linkEnd = store.endOpen selection linkEnd := by
  rw [endFlaggedShown, lastLive?_flagBlocked, Option.any_map, endOpen]

theorem mem_shownAtLinks_flagBlocked {store : Store} {selection : Selection} {id : String} :
    id ∈ (store.flagBlocked selection).shownAtLinks ↔
      (store.links.any fun link => store.linkOpen selection link && link.touches id) = true := by
  have hopen : (store.flagBlocked selection).shownAtLinks =
      (store.links.filter (store.linkOpen selection)).flatMap
        fun link => [link.source.id, link.target.id] := by
    simp only [shownAtLinks, endFlaggedShown_flagBlocked]
    rfl
  rw [hopen]
  simp [Link.touches, and_assoc, @eq_comm _ id]

theorem lookup_unlinkedFlags_flagBlocked (store : Store) (selection : Selection) (id : String) :
    ((store.flagBlocked selection).unlinkedFlags selection).lookup id =
      (store.lastLive? id).map fun node =>
        !(node.isSelectable && selection.lookup node.id == some true) := by
  have hfind := lastLive?_flagBlocked store selection id
  rw [lastLive?] at hfind
  rw [unlinkedFlags, lookup_map_eq_find?, hfind, Option.map_map]
  rfl

theorem lookup_flagTable_flagBlocked {store : Store} {node : Node} (h : node ∈ store.nodes)
    (selection : Selection) :
    ((store.flagBlocked selection).flagTable selection).lookup node.id =
      some (store.hiddenBy selection node.id) := by
  obtain ⟨last, hlast, hid⟩ := exists_lastLive? h
  rw [flagTable, List.lookup_append, lookup_unlinkedFlags_flagBlocked, hiddenBy, hlast,
    Option.map_some, hid]
  by_cases hshown : node.id ∈ (store.flagBlocked selection).shownAtLinks
  · rw [List.lookup_graph _ hshown, mem_shownAtLinks_flagBlocked.mp hshown]
    rfl
  · have hnone : ((store.flagBlocked selection).shownAtLinks.map fun id => (id, false)).lookup
        node.id = none := by
      rw [lookup_map_eq_find?, List.find?_eq_none.mpr, Option.map_none]
      intro id hmem heq
      exact hshown (beq_iff_eq.mp heq ▸ hmem)
    have hclosed := mt mem_shownAtLinks_flagBlocked.mpr hshown
    rw [hnone, Bool.eq_false_iff.mpr hclosed]
    rfl

theorem applySelection_eq_selectInPasses (store : Store) (selection : Selection) :
    store.applySelection selection = store.selectInPasses selection := by
  have hpasses : store.selectInPasses selection = store.mapNodes fun node =>
      { node with
        hidden := (((store.flagBlocked selection).flagTable selection).lookup node.id).getD
          (blocked selection node) } := by
    rw [selectInPasses, flagBlocked, mapNodes_mapNodes]
    rfl
  rw [hpasses, applySelection]
  apply mapNodes_congr
  intro node hnode
  rw [lookup_flagTable_flagBlocked hnode, Option.getD_some]

/-! ## Flags do not reach anything else -/

theorem toGraph_mapNodes_unflagged (store : Store) {change : Node → Node}
    (h : ∀ node, (change node).unflagged = node.unflagged) :
    (store.mapNodes change).toGraph.unflagged = store.toGraph.unflagged := by
  simp [Graph.unflagged, toGraph, Function.comp_def, h]

def liveUnflagged (slots : List Slot) : List Node :=
  (slots.filter (·.live)).map (·.node.unflagged)

theorem liveUnflagged_reverse (slots : List Slot) :
    liveUnflagged slots.reverse = (liveUnflagged slots).reverse := by
  rw [liveUnflagged, liveUnflagged, List.filter_reverse, List.map_reverse]

theorem unflagged_toGraph_nodes (store : Store) :
    store.toGraph.unflagged.nodes = liveUnflagged store.slots := by
  simp [Graph.unflagged, toGraph, Store.nodes, liveUnflagged]

theorem liveUnflagged_changeFirst (test : Slot → Bool) (hidden : Bool) (slots : List Slot) :
    liveUnflagged (changeFirst test (fun node => { node with hidden := hidden }) slots) =
      liveUnflagged slots := by
  induction slots with
  | nil => rfl
  | cons slot rest ih =>
      unfold changeFirst
      split
      · cases hlive : slot.live <;> simp [liveUnflagged, hlive, Node.unflagged]
      · unfold liveUnflagged at ih ⊢
        cases hlive : slot.live <;> simp [hlive, ih]

theorem edit_unflagged (store : Store) (edit : FlagEdit) :
    (store.edit edit.toEdit).toGraph.unflagged = store.toGraph.unflagged := by
  cases edit with
  | setFound key hidden =>
      have hnodes : liveUnflagged (store.changeNode key fun node =>
          { node with hidden := hidden }).slots = liveUnflagged store.slots := by
        rw [changeNode, liveUnflagged_reverse, liveUnflagged_changeFirst, liveUnflagged_reverse,
          List.reverse_reverse]
      rw [← unflagged_toGraph_nodes, ← unflagged_toGraph_nodes] at hnodes
      exact congrArg (Graph.mk · store.links) hnodes
  | showAll => exact store.toGraph_mapNodes_unflagged fun _ => rfl
  | select selection => exact store.toGraph_mapNodes_unflagged fun _ => rfl

theorem run_unflagged (store : Store) (edits : List FlagEdit) :
    (store.run (edits.map (·.toEdit))).toGraph.unflagged = store.toGraph.unflagged := by
  induction edits generalizing store with
  | nil => rfl
  | cons edit rest ih =>
      rw [List.map_cons, run, List.foldl_cons]
      exact (ih (store.edit edit.toEdit)).trans (store.edit_unflagged edit)

/-! ## A selection does not ask for flags -/

theorem hiddenBy_congr {store other : Store} (h : store.toGraph = other.toGraph)
    (selection : Selection) (id : String) :
    store.hiddenBy selection id = other.hiddenBy selection id := by
  have hnodes : store.nodes = other.nodes := congrArg Graph.nodes h
  have hlinks : store.links = other.links := congrArg Graph.links h
  simp only [hiddenBy, linkOpen, endOpen, lastLive?, hnodes, hlinks]

theorem hiddenBy_unflagged {store other : Store}
    (h : store.toGraph.unflagged = other.toGraph.unflagged) (selection : Selection) (id : String) :
    store.hiddenBy selection id = other.hiddenBy selection id := by
  have hcleared (store : Store) : (store.mapNodes Node.unflagged).hiddenBy selection id =
      store.hiddenBy selection id := by
    apply hiddenBy_mapNodes
    · exact fun _ => rfl
    · exact fun _ => rfl
  have hgraph (store : Store) :
      (store.mapNodes Node.unflagged).toGraph = store.toGraph.unflagged := by
    simp [toGraph, Graph.unflagged]
  rw [← hcleared store, ← hcleared other]
  exact hiddenBy_congr (by rw [hgraph, hgraph, h]) selection id

theorem toGraph_applySelection (store : Store) (selection : Selection) :
    (store.applySelection selection).toGraph =
      { store.toGraph.unflagged with
        nodes := store.toGraph.unflagged.nodes.map fun node =>
          { node with hidden := store.hiddenBy selection node.id } } := by
  simp [applySelection, toGraph, Graph.unflagged, Node.unflagged, Function.comp_def]

theorem applySelection_reflags (store : Store) (selection : Selection) :
    List.Forall₂ Slot.Reflagged store.slots (store.applySelection selection).slots := by
  rw [applySelection, mapNodes, List.forall₂_map_right_iff, List.forall₂_same]
  intro slot _
  split
  case isTrue hlive =>
    exact ⟨rfl, rfl, rfl, fun hretired => absurd (hlive.symm.trans hretired) (by decide)⟩
  case isFalse => exact ⟨rfl, rfl, rfl, fun _ => rfl⟩

/-- After any run of edits to flags, a selection leaves the same graph as without them, although its
passes read flags. Of a store it changes flags of live nodes only; links and retired slots stay as they
are. -/
theorem applySelection_forgets (store : Store) (edits : List FlagEdit) (selection : Selection) :
    let selected := store.applySelection selection
    selected = store.selectInPasses selection ∧
    ((store.run (edits.map (·.toEdit))).applySelection selection).toGraph = selected.toGraph ∧
    selected.toGraph.unflagged = store.toGraph.unflagged ∧
    selected.links = store.links ∧
    List.Forall₂ Slot.Reflagged store.slots selected.slots := by
  intro selected
  have hrun := store.run_unflagged edits
  refine ⟨store.applySelection_eq_selectInPasses selection, ?_,
    store.edit_unflagged (.select selection), rfl, store.applySelection_reflags selection⟩
  have hflags : ∀ id, (store.run (edits.map (·.toEdit))).hiddenBy selection id =
      store.hiddenBy selection id := hiddenBy_unflagged hrun selection
  rw [toGraph_applySelection, toGraph_applySelection]
  simp only [hrun, hflags]

end Store
end ActionAtlas
