import ActionAtlas.Proofs.GraphBuild
import ActionAtlas.Proofs.Projection
import Mathlib.Data.List.Find

/-!
# Folded reducers of a built graph

In the graph of an analysis, folding looks at links and ids only. Here it is tied back to the
entries: an action is folded exactly when a place that refers to it is filed under a reducer and
does not create it, and the reducer that it remembers is that of the first such place in the order
of the entries.
-/

namespace ActionAtlas

def mentions (actions : List ActionEntry) : List (ActionEntry × ReferenceEntry) :=
  actions.flatMap fun action => action.references.map fun reference => (action, reference)

/-- A place that says something, is filed under a reducer and does not create the action. -/
def ReferenceEntry.feedsReducer (reference : ReferenceEntry) : Bool :=
  !reference.isNoise && reference.dominant? == some .reducer && !reference.hasUsage .instantiate

/-- The first place in the order of the entries by which the actions with an id feed a reducer. -/
def firstFed? (actions : List ActionEntry) (id : String) : Option ReferenceEntry :=
  ((mentions actions).find? fun mention => mention.1.id == id && mention.2.feedsReducer).map (·.2)

theorem mem_mentions {actions : List ActionEntry} {mention : ActionEntry × ReferenceEntry} :
    mention ∈ mentions actions ↔ mention.1 ∈ actions ∧ mention.2 ∈ mention.1.references := by
  obtain ⟨action, reference⟩ := mention
  simp [mentions]

theorem flatMap_links_eq (actions : List ActionEntry) :
    actions.flatMap (·.links) =
      ((mentions actions).filter (!·.2.isNoise)).map fun mention => mention.1.linkTo mention.2 := by
  simp [mentions, ActionEntry.links, ActionEntry.relevant, List.filter_flatMap, List.map_flatMap,
    List.filter_map, Function.comp_def]

theorem firstFed?_isSome_iff {actions : List ActionEntry} {id : String} :
    (firstFed? actions id).isSome = true ↔
      ∃ action ∈ actions, action.id = id ∧
        ∃ reference ∈ action.references, reference.feedsReducer = true := by
  simp only [firstFed?, Option.isSome_map, List.find?_isSome, mem_mentions, Prod.exists,
    Bool.and_eq_true, beq_iff_eq]
  constructor
  · rintro ⟨action, reference, ⟨haction, hreference⟩, hid, hfeeds⟩
    exact ⟨action, haction, hid, reference, hreference, hfeeds⟩
  · rintro ⟨action, haction, hid, reference, hreference, hfeeds⟩
    exact ⟨action, reference, ⟨haction, hreference⟩, hid, hfeeds⟩

theorem ReferenceEntry.dominantKind_eq_reducer_iff {reference : ReferenceEntry} :
    reference.dominantKind = .reducer ↔ reference.dominant? = some .reducer := by
  unfold ReferenceEntry.dominantKind
  cases reference.dominant? with
  | none => simp
  | some usage => cases usage <;> simp [Usage.kind]

theorem ReferenceEntry.feedsReducer_iff {reference : ReferenceEntry} :
    reference.feedsReducer = true ↔
      reference.isNoise = false ∧ reference.dominantKind = .reducer ∧
        reference.hasUsage .instantiate = false := by
  simp [ReferenceEntry.feedsReducer, dominantKind_eq_reducer_iff, and_assoc]

namespace Graph

variable {depth : Nat} {actions : List ActionEntry}

/-! ## The links that folding looks at -/

theorem reference_id_mem_reducerIds {action : ActionEntry} {reference : ReferenceEntry}
    (haction : action ∈ actions) (hreference : reference ∈ action.relevant) :
    reference.id ∈ (Store.ofGraph (ofEntries depth actions)).reducerIds ↔
      reference.dominantKind = .reducer := by
  rw [Store.mem_reducerIds, Store.nodes_ofGraph]
  constructor
  · rintro ⟨node, hnode, hkind, hid⟩
    rw [ofEntries_kind_of_reference hnode hid] at hkind
    exact UsageKind.nodeKind_eq_reducer_iff.mp hkind
  · intro hkind
    obtain ⟨node, hnode, hid⟩ := exists_reference_node depth haction hreference
    refine ⟨node, hnode, ?_, hid⟩
    rw [ofEntries_kind_of_reference hnode hid]
    exact UsageKind.nodeKind_eq_reducer_iff.mpr hkind

/-- Seen from an action, a link leads from it into a reducer exactly when it stands for a place that
feeds one: a place that creates the action has its link the other way round. -/
theorem linkTo_feeds_iff {id : String} (howner : ∃ owner ∈ actions, owner.id = id)
    {action : ActionEntry} {reference : ReferenceEntry}
    (haction : action ∈ actions) (hreference : reference ∈ action.relevant) :
    ((action.linkTo reference).source.id = id ∧
        (action.linkTo reference).target.id ∈
          (Store.ofGraph (ofEntries depth actions)).reducerIds) ↔
      action.id = id ∧ reference.feedsReducer = true := by
  obtain ⟨owner, _, howner⟩ := howner
  have hnoise : reference.isNoise = false := (ActionEntry.mem_relevant.mp hreference).2
  rw [ReferenceEntry.feedsReducer_iff]
  obtain ⟨_, _, _, ⟨hcreates, hsource, htarget⟩ | ⟨hcreates, hsource, htarget⟩⟩ :=
    ActionEntry.eq_linkTo_iff.mp (rfl : action.linkTo reference = action.linkTo reference)
  · rw [hsource, htarget]
    constructor
    · rintro ⟨hid, _⟩
      exact absurd (howner.trans hid.symm) (owner.id_ne_id reference)
    · rintro ⟨_, _, _, hnever⟩
      rw [hcreates] at hnever
      exact absurd hnever (by decide)
  · rw [hsource, htarget]
    simp only [LinkEnd.id, reference_id_mem_reducerIds haction hreference, hnoise, hcreates,
      true_and, and_true]

theorem target_of_feeds {action : ActionEntry} {reference : ReferenceEntry}
    (h : reference.feedsReducer = true) : (action.linkTo reference).target.id = reference.id := by
  have hcreates := (ReferenceEntry.feedsReducer_iff.mp h).2.2
  simp [ActionEntry.linkTo, hcreates, LinkEnd.id]

/-- Repeated links are dropped before folding looks for one; the first of the rest still belongs to
the first mention that gives such a link. -/
theorem find?_links_ofEntries (test : Link → Bool) :
    (ofEntries depth actions).links.find? test =
      ((mentions actions).find? fun mention =>
        !mention.2.isNoise && test (mention.1.linkTo mention.2)).map
          fun mention => mention.1.linkTo mention.2 := by
  have hfirst : (ofEntries depth actions).links.find? test =
      (actions.flatMap (·.links)).find? test :=
    find?_firstsBy (fun x y h => by rw [h]) _
  rw [hfirst, flatMap_links_eq, List.find?_map, List.find?_filter]
  simp only [Function.comp_apply, ← Bool.and_eq_true, Bool.decide_eq_true]

theorem feedingLink?_ofEntries (depth : Nat) {id : String}
    (howner : ∃ owner ∈ actions, owner.id = id) :
    (Store.feedingLink? (ofEntries depth actions).links
        (Store.ofGraph (ofEntries depth actions)).reducerIds id).map (·.target.id) =
      (firstFed? actions id).map (·.id) := by
  have hsame : ∀ mention ∈ mentions actions,
      (!mention.2.isNoise && ((mention.1.linkTo mention.2).source.id == id &&
        (Store.ofGraph (ofEntries depth actions)).reducerIds.contains
          (mention.1.linkTo mention.2).target.id)) =
      (mention.1.id == id && mention.2.feedsReducer) := by
    intro mention hmention
    obtain ⟨haction, hreference⟩ := mem_mentions.mp hmention
    cases hnoise : mention.2.isNoise with
    | true => simp [ReferenceEntry.feedsReducer, hnoise]
    | false =>
        rw [Bool.eq_iff_iff]
        simpa using linkTo_feeds_iff howner haction
          (ActionEntry.mem_relevant.mpr ⟨hreference, hnoise⟩)
  rw [Store.feedingLink?, find?_links_ofEntries, List.find?_congr hsame, firstFed?]
  cases hfound : (mentions actions).find? fun mention =>
      mention.1.id == id && mention.2.feedsReducer with
  | none => rfl
  | some mention =>
      have hmatch := List.find?_some hfound
      rw [Bool.and_eq_true] at hmatch
      simp [target_of_feeds hmatch.2]

/-! ## Nodes after folding -/

/-- A node that folding leaves in the graph: its back reference is given by the first place that
feeds a reducer, and it is as it was built when there is no such place. -/
theorem foldReducer_ofEntries {node : Node} (h : node ∈ (ofEntries depth actions).nodes) :
    let folded := Store.foldReducer (ofEntries depth actions).links
      (Store.ofGraph (ofEntries depth actions)).reducerIds node
    folded.reducer = (firstFed? actions node.id).map (·.id) ∧
      ((∃ reference, firstFed? actions node.id = some reference ∧ folded.kind = .reducer) ∨
        (firstFed? actions node.id = none ∧ folded = node)) := by
  unfold Store.foldReducer
  by_cases hkind : node.kind = .action
  · have hfed := feedingLink?_ofEntries depth ((ofEntries_kind_action_iff h).mp hkind)
    rw [if_pos hkind]
    cases hlink : Store.feedingLink? (ofEntries depth actions).links
        (Store.ofGraph (ofEntries depth actions)).reducerIds node.id with
    | none =>
        rw [hlink, Option.map_none, eq_comm, Option.map_eq_none_iff] at hfed
        exact ⟨by rw [hfed]; exact (ofEntries_node_plain h).1, Or.inr ⟨hfed, rfl⟩⟩
    | some link =>
        rw [hlink, Option.map_some, eq_comm, Option.map_eq_some_iff] at hfed
        obtain ⟨reference, hfirst, htarget⟩ := hfed
        exact ⟨by rw [hfirst, Option.map_some, htarget], Or.inl ⟨reference, hfirst, rfl⟩⟩
  · have hnone : firstFed? actions node.id = none := by
      rw [← Option.not_isSome_iff_eq_none, firstFed?_isSome_iff]
      rintro ⟨action, haction, hid, _⟩
      exact hkind ((ofEntries_kind_action_iff h).mpr ⟨action, haction, hid⟩)
    rw [if_neg hkind]
    exact ⟨by rw [hnone]; exact (ofEntries_node_plain h).1, Or.inr ⟨hnone, rfl⟩⟩

theorem mem_nodes_splitReducers {node : Node} :
    node ∈ (Store.ofGraph (ofEntries depth actions)).withSplitReducers.nodes ↔
      ∃ original ∈ (ofEntries depth actions).nodes, original.kind ≠ .reducer ∧
        Store.foldReducer (ofEntries depth actions).links
          (Store.ofGraph (ofEntries depth actions)).reducerIds original = node := by
  rw [Store.nodes_withSplitReducers, Store.nodes_withoutReducers, Store.nodes_ofGraph]
  simp [and_assoc]

theorem splitReducers_ids_nodup (depth : Nat) (actions : List ActionEntry) :
    ((Store.ofGraph (ofEntries depth actions)).withSplitReducers.nodes.map (·.id)).Nodup := by
  have hsublist := Store.ids_withoutReducers_sublist (Store.ofGraph (ofEntries depth actions))
  rw [Store.nodes_ofGraph] at hsublist
  rw [Store.ids_withSplitReducers]
  exact (ofEntries_ids_nodup depth actions).sublist hsublist

/-- A node of the folded graph either remembers the first place by which it feeds a reducer, or
feeds none and is as it was built. -/
theorem splitReducers_node_cases {node : Node}
    (h : node ∈ (Store.ofGraph (ofEntries depth actions)).withSplitReducers.nodes) :
    (∃ reference, firstFed? actions node.id = some reference ∧ node.kind = .reducer ∧
      node.reducer = some reference.id) ∨
    (firstFed? actions node.id = none ∧ node.kind ≠ .reducer ∧ node.reducer = none ∧
      node ∈ (ofEntries depth actions).nodes) := by
  obtain ⟨original, horiginal, hkind, rfl⟩ := mem_nodes_splitReducers.mp h
  rw [Store.foldReducer_id]
  obtain ⟨hback, ⟨reference, hfirst, hreducer⟩ | ⟨hnone, hsame⟩⟩ := foldReducer_ofEntries horiginal
  · exact Or.inl ⟨reference, hfirst, hreducer, by rw [hback, hfirst, Option.map_some]⟩
  · rw [hsame]
    exact Or.inr ⟨hnone, hkind, (ofEntries_node_plain horiginal).1, horiginal⟩

theorem mem_splitReducers_of_not_fed {node : Node} (hnode : node ∈ (ofEntries depth actions).nodes)
    (hkind : node.kind ≠ .reducer) (hnone : firstFed? actions node.id = none) :
    node ∈ (Store.ofGraph (ofEntries depth actions)).withSplitReducers.nodes := by
  obtain ⟨_, ⟨reference, hfirst, _⟩ | ⟨_, hsame⟩⟩ := foldReducer_ofEntries hnode
  · rw [hnone] at hfirst
    cases hfirst
  · exact mem_nodes_splitReducers.mpr ⟨node, hnode, hkind, hsame⟩

theorem exists_splitReducers_node (depth : Nat) {action : ActionEntry} (h : action ∈ actions) :
    ∃ node ∈ (Store.ofGraph (ofEntries depth actions)).withSplitReducers.nodes,
      node.id = action.id := by
  obtain ⟨original, horiginal, hid⟩ := exists_action_node depth h
  have hkind : original.kind = .action :=
    (ofEntries_kind_action_iff horiginal).mpr ⟨action, h, hid.symm⟩
  refine ⟨_, mem_nodes_splitReducers.mpr ⟨original, horiginal, ?_, rfl⟩, ?_⟩
  · rw [hkind]
    decide
  · rw [Store.foldReducer_id, hid]

/-- Folding, told by the entries: ids stay distinct; the reducers are the actions with a place that
feeds one; each remembers the first such place; every other node is one of the built graph, with no
back reference; and of the built graph every node stays that is no reducer and feeds none. -/
theorem splitReducers_exact (depth : Nat) (actions : List ActionEntry) :
    let built := ofEntries depth actions
    let split := (Store.ofGraph built).withSplitReducers
    (split.nodes.map (·.id)).Nodup ∧
    (∀ id, (∃ node ∈ split.nodes, node.id = id ∧ node.kind = .reducer) ↔
      ∃ action ∈ actions, action.id = id ∧
        ∃ reference ∈ action.references, reference.feedsReducer = true) ∧
    (∀ node ∈ split.nodes, node.kind = .reducer →
      ∃ reference, firstFed? actions node.id = some reference ∧
        node.reducer = some reference.id) ∧
    (∀ node ∈ split.nodes, node.kind ≠ .reducer → node.reducer = none ∧ node ∈ built.nodes) ∧
    (∀ node ∈ built.nodes, node.kind ≠ .reducer → firstFed? actions node.id = none →
      node ∈ split.nodes) := by
  refine ⟨splitReducers_ids_nodup depth actions, ?_, ?_, ?_, ?_⟩
  · intro id
    rw [← firstFed?_isSome_iff]
    constructor
    · rintro ⟨node, hnode, rfl, hreducer⟩
      rcases splitReducers_node_cases hnode with ⟨reference, hfirst, _⟩ | ⟨_, hother, _⟩
      · rw [hfirst, Option.isSome_some]
      · exact absurd hreducer hother
    · intro hfed
      obtain ⟨action, haction, hid, _⟩ := firstFed?_isSome_iff.mp hfed
      obtain ⟨node, hnode, hnodeId⟩ := exists_splitReducers_node depth haction
      have hsame : node.id = id := hnodeId.trans hid
      rcases splitReducers_node_cases hnode with ⟨_, _, hreducer, _⟩ | ⟨hnone, _⟩
      · exact ⟨node, hnode, hsame, hreducer⟩
      · rw [← hsame, hnone] at hfed
        exact absurd hfed (by simp)
  · intro node hnode hreducer
    rcases splitReducers_node_cases hnode with ⟨reference, hfirst, _, hback⟩ | ⟨_, hother, _⟩
    · exact ⟨reference, hfirst, hback⟩
    · exact absurd hreducer hother
  · intro node hnode hother
    rcases splitReducers_node_cases hnode with ⟨_, _, hreducer, _⟩ | ⟨_, _, hback, hbuilt⟩
    · exact absurd hreducer hother
    · exact ⟨hback, hbuilt⟩
  · intro node hnode hkind hnone
    exact mem_splitReducers_of_not_fed hnode hkind hnone

end Graph
end ActionAtlas
