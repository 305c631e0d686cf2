import ActionAtlas.Proofs.Firsts
import ActionAtlas.Proofs.Identity
import ActionAtlas.Proofs.StoreView

/-!
# The built graph

Nodes and links of `Graph.ofEntries`, each described from the entries alone. Nodes and links are
made by two separate passes that drop repetitions on their own; the membership lemmas below tie both
to the pairs of an action and a reference that says something. Every such pair has one end in each
of the two kinds of ids, so every link joins an action with a node of another kind.
-/

namespace ActionAtlas

@[simp] theorem ActionEntry.mem_relevant {action : ActionEntry} {reference : ReferenceEntry} :
    reference ∈ action.relevant ↔
      reference ∈ action.references ∧ reference.isNoise = false := by
  simp [ActionEntry.relevant]

@[simp] theorem ActionEntry.toNode_id (action : ActionEntry) : action.toNode.id = action.id := rfl

@[simp] theorem ActionEntry.toNode_kind (action : ActionEntry) : action.toNode.kind = .action := rfl

@[simp] theorem ReferenceEntry.toNode_id (reference : ReferenceEntry) (depth : Nat) :
    (reference.toNode depth).id = reference.id := rfl

@[simp] theorem ReferenceEntry.toNode_kind (reference : ReferenceEntry) (depth : Nat) :
    (reference.toNode depth).kind = reference.dominantKind.nodeKind := rfl

theorem UsageKind.nodeKind_ne_action (kind : UsageKind) : kind.nodeKind ≠ .action := by
  cases kind <;> decide

theorem UsageKind.nodeKind_eq_reducer_iff {kind : UsageKind} :
    kind.nodeKind = .reducer ↔ kind = .reducer := by
  cases kind <;> decide

/-- A link stands at the place of its reference; which way it points depends on what happens there.
-/
theorem ActionEntry.eq_linkTo_iff {action : ActionEntry} {reference : ReferenceEntry}
    {link : Link} :
    link = action.linkTo reference ↔
      link.filePath = some reference.filePath ∧ link.line = some reference.line ∧
      link.status = .disabled ∧
      ((reference.hasUsage .instantiate = true ∧
          link.source = .bare reference.id ∧ link.target = .bare action.id) ∨
        (reference.hasUsage .instantiate = false ∧
          link.source = .bare action.id ∧ link.target = .bare reference.id)) := by
  constructor
  · rintro rfl
    cases h : reference.hasUsage .instantiate <;> simp [ActionEntry.linkTo, h]
  · obtain ⟨source, target, filePath, line, status⟩ := link
    rintro ⟨rfl, rfl, rfl, ⟨h, rfl, rfl⟩ | ⟨h, rfl, rfl⟩⟩
    · simp [ActionEntry.linkTo, h]
    · simp [ActionEntry.linkTo, h]

namespace Graph

variable {depth : Nat} {actions : List ActionEntry}

/-! ## Nodes -/

theorem ofEntries_ids_nodup (depth : Nat) (actions : List ActionEntry) :
    ((ofEntries depth actions).nodes.map (·.id)).Nodup :=
  firstsBy_keys_nodup (·.id) (actions.flatMap (·.nodes depth))

private theorem mem_nodes_candidates {node : Node} :
    node ∈ actions.flatMap (·.nodes depth) ↔
      (∃ action ∈ actions, node = action.toNode) ∨
      ∃ action ∈ actions, ∃ reference ∈ action.relevant, node = reference.toNode depth := by
  simp only [List.mem_flatMap, ActionEntry.nodes, List.mem_cons, List.mem_map]
  constructor
  · rintro ⟨action, haction, rfl | ⟨reference, hreference, rfl⟩⟩
    · exact Or.inl ⟨action, haction, rfl⟩
    · exact Or.inr ⟨action, haction, reference, hreference, rfl⟩
  · rintro (⟨action, haction, rfl⟩ | ⟨action, haction, reference, hreference, rfl⟩)
    · exact ⟨action, haction, Or.inl rfl⟩
    · exact ⟨action, haction, Or.inr ⟨reference, hreference, rfl⟩⟩

/-- A node stands for an action or for a reference that says something. -/
theorem ofEntries_node_cases {node : Node} (h : node ∈ (ofEntries depth actions).nodes) :
    (∃ action ∈ actions, node = action.toNode) ∨
    ∃ action ∈ actions, ∃ reference ∈ action.relevant, node = reference.toNode depth :=
  mem_nodes_candidates.mp (mem_of_mem_firstsBy h)

/-- Building neither folds nor hides a node. -/
theorem ofEntries_node_plain {node : Node} (h : node ∈ (ofEntries depth actions).nodes) :
    node.reducer = none ∧ node.hidden = false := by
  rcases ofEntries_node_cases h with ⟨action, _, rfl⟩ | ⟨_, _, reference, _, rfl⟩
  · exact ⟨rfl, rfl⟩
  · exact ⟨rfl, rfl⟩

theorem exists_node_ofEntries_iff {id : String} :
    (∃ node ∈ (ofEntries depth actions).nodes, node.id = id) ↔
      (∃ action ∈ actions, action.id = id) ∨
      ∃ action ∈ actions, ∃ reference ∈ action.relevant, reference.id = id := by
  refine (mem_firstsBy_keys Node.id (actions.flatMap (·.nodes depth)) id).trans ?_
  simp only [mem_nodes_candidates]
  constructor
  · rintro ⟨node, ⟨action, haction, rfl⟩ | ⟨action, haction, reference, hreference, rfl⟩, rfl⟩
    · exact Or.inl ⟨action, haction, rfl⟩
    · exact Or.inr ⟨action, haction, reference, hreference, rfl⟩
  · rintro (⟨action, haction, rfl⟩ | ⟨action, haction, reference, hreference, rfl⟩)
    · exact ⟨action.toNode, Or.inl ⟨action, haction, rfl⟩, rfl⟩
    · exact ⟨reference.toNode depth, Or.inr ⟨action, haction, reference, hreference, rfl⟩, rfl⟩

theorem exists_action_node (depth : Nat) {action : ActionEntry} (h : action ∈ actions) :
    ∃ node ∈ (ofEntries depth actions).nodes, node.id = action.id :=
  exists_node_ofEntries_iff.mpr (Or.inl ⟨action, h, rfl⟩)

theorem exists_reference_node (depth : Nat) {action : ActionEntry} {reference : ReferenceEntry}
    (haction : action ∈ actions) (hreference : reference ∈ action.relevant) :
    ∃ node ∈ (ofEntries depth actions).nodes, node.id = reference.id :=
  exists_node_ofEntries_iff.mpr (Or.inr ⟨action, haction, reference, hreference, rfl⟩)

/-- The kind of a node can be read off its id: it is an action exactly when some action has the id.
-/
theorem ofEntries_kind_action_iff {node : Node} (h : node ∈ (ofEntries depth actions).nodes) :
    node.kind = .action ↔ ∃ action ∈ actions, action.id = node.id := by
  rcases ofEntries_node_cases h with ⟨action, haction, rfl⟩ | ⟨_, _, reference, _, rfl⟩
  · exact ⟨fun _ => ⟨action, haction, rfl⟩, fun _ => rfl⟩
  · constructor
    · intro hkind
      exact absurd hkind (UsageKind.nodeKind_ne_action _)
    · rintro ⟨action, _, hid⟩
      exact absurd hid (action.id_ne_id reference)

/-- The node that carries the id of a reference has the kind that this reference is filed under,
even if another reference was there first. -/
theorem ofEntries_kind_of_reference {node : Node} {reference : ReferenceEntry}
    (h : node ∈ (ofEntries depth actions).nodes) (hid : node.id = reference.id) :
    node.kind = reference.dominantKind.nodeKind := by
  rcases ofEntries_node_cases h with ⟨action, _, rfl⟩ | ⟨_, _, other, _, rfl⟩
  · exact absurd hid (action.id_ne_id reference)
  · rw [ReferenceEntry.toNode_kind, ReferenceEntry.dominantKind_eq_of_id_eq hid]

/-! ## Links -/

theorem ofEntries_links_nodup (depth : Nat) (actions : List ActionEntry) :
    (ofEntries depth actions).links.Nodup :=
  firstsBy_self_nodup (actions.flatMap ActionEntry.links)

theorem mem_links_ofEntries {link : Link} :
    link ∈ (ofEntries depth actions).links ↔
      ∃ action ∈ actions, ∃ reference ∈ action.relevant, link = action.linkTo reference := by
  refine mem_firstsBy_self.trans ?_
  simp only [List.mem_flatMap, ActionEntry.links, List.mem_map, eq_comm]

/-- Every link joins an action with a reference to it, by their bare ids. -/
theorem ofEntries_link_ends {link : Link} (h : link ∈ (ofEntries depth actions).links) :
    ∃ action ∈ actions, ∃ reference ∈ action.relevant,
      (link.source = .bare reference.id ∧ link.target = .bare action.id) ∨
      (link.source = .bare action.id ∧ link.target = .bare reference.id) := by
  obtain ⟨action, haction, reference, hreference, hlink⟩ := mem_links_ofEntries.mp h
  obtain ⟨_, _, _, ⟨_, hends⟩ | ⟨_, hends⟩⟩ := ActionEntry.eq_linkTo_iff.mp hlink
  · exact ⟨action, haction, reference, hreference, Or.inl hends⟩
  · exact ⟨action, haction, reference, hreference, Or.inr hends⟩

/-- Between the two ends of a link, exactly one is an action. -/
theorem ofEntries_link_kinds {link : Link} (h : link ∈ (ofEntries depth actions).links) :
    ∃ source ∈ (ofEntries depth actions).nodes, ∃ target ∈ (ofEntries depth actions).nodes,
      link.source = .bare source.id ∧ link.target = .bare target.id ∧
      ((source.kind = .action ∧ target.kind ≠ .action) ∨
        (source.kind ≠ .action ∧ target.kind = .action)) := by
  obtain ⟨action, haction, reference, hreference, hends⟩ := ofEntries_link_ends h
  obtain ⟨actionNode, hactionNode, hactionId⟩ := exists_action_node depth haction
  obtain ⟨placeNode, hplaceNode, hplaceId⟩ := exists_reference_node depth haction hreference
  have hactionKind : actionNode.kind = .action :=
    (ofEntries_kind_action_iff hactionNode).mpr ⟨action, haction, hactionId.symm⟩
  have hplaceKind : placeNode.kind ≠ .action := by
    rw [ofEntries_kind_of_reference hplaceNode hplaceId]
    exact UsageKind.nodeKind_ne_action _
  rcases hends with ⟨hsource, htarget⟩ | ⟨hsource, htarget⟩
  · exact ⟨placeNode, hplaceNode, actionNode, hactionNode, by rw [hsource, hplaceId],
      by rw [htarget, hactionId], Or.inr ⟨hplaceKind, hactionKind⟩⟩
  · exact ⟨actionNode, hactionNode, placeNode, hplaceNode, by rw [hsource, hactionId],
      by rw [htarget, hplaceId], Or.inl ⟨hactionKind, hplaceKind⟩⟩

theorem ofEntries_wired (depth : Nat) (actions : List ActionEntry) :
    (ofEntries depth actions).Wired := by
  refine ⟨ofEntries_ids_nodup depth actions, ?_, ?_⟩
  · intro link hlink
    obtain ⟨source, hsource, _, _, hs, _⟩ := ofEntries_link_kinds hlink
    exact ⟨source, hsource, hs⟩
  · intro link hlink
    obtain ⟨_, _, target, htarget, _, ht, _⟩ := ofEntries_link_kinds hlink
    exact ⟨target, htarget, ht⟩

/-! ## Passes over the entries -/

def addNodes (depth : Nat) (pass : Pass Node String) (action : ActionEntry) : Pass Node String :=
  action.relevant.foldl (fun pass reference => pass.step (·.id) (reference.toNode depth))
    (pass.step (·.id) action.toNode)

def addLinks [Hashable Link] (pass : Pass Link Link) (action : ActionEntry) : Pass Link Link :=
  action.relevant.foldl
    (fun pass reference => pass.step (fun link => link) (action.linkTo reference)) pass

/-- The graph is what two passes over the entries keep, one that remembers the ids it has used and one
that remembers links, however links are hashed. -/
theorem ofEntries_in_passes [Hashable Link] (depth : Nat) (actions : List ActionEntry) :
    ofEntries depth actions =
      { nodes := (actions.foldl (addNodes depth) {}).kept
        links := (actions.foldl addLinks {}).kept } := by
  have hnodes : (actions.foldl (addNodes depth) {}).kept =
      firstsBy (·.id) (actions.flatMap (·.nodes depth)) := by
    rw [← Pass.kept_eq_firstsBy, List.foldl_flatMap]
    simp only [ActionEntry.nodes, List.foldl_cons, List.foldl_map]
    rfl
  have hlinks : (actions.foldl addLinks {}).kept =
      firstsBy (fun link => link) (actions.flatMap (·.links)) := by
    rw [← Pass.kept_eq_firstsBy, List.foldl_flatMap]
    simp only [ActionEntry.links, List.foldl_map]
    rfl
  rw [hnodes, hlinks]
  rfl

/-- The built graph, described by the entries. Ids and links are distinct; links join an action with
a node of another kind by bare ids; the ids are those of the actions and of the references that say
something; and there is one link for each such reference and its action, at the place of the
reference, pointing at the action exactly when the place creates it. -/
theorem ofEntries_exact (depth : Nat) (actions : List ActionEntry) :
    let graph := ofEntries depth actions
    (graph.nodes.map (·.id)).Nodup ∧ graph.links.Nodup ∧
    (∀ link ∈ graph.links, ∃ source ∈ graph.nodes, ∃ target ∈ graph.nodes,
      link.source = .bare source.id ∧ link.target = .bare target.id ∧
      ((source.kind = .action ∧ target.kind ≠ .action) ∨
        (source.kind ≠ .action ∧ target.kind = .action))) ∧
    (∀ id, (∃ node ∈ graph.nodes, node.id = id) ↔
      (∃ action ∈ actions, action.id = id) ∨
      ∃ action ∈ actions, ∃ reference ∈ action.references,
        reference.isNoise = false ∧ reference.id = id) ∧
    (∀ link, link ∈ graph.links ↔
      ∃ action ∈ actions, ∃ reference ∈ action.references, reference.isNoise = false ∧
        link.filePath = some reference.filePath ∧ link.line = some reference.line ∧
        link.status = .disabled ∧
        ((reference.hasUsage .instantiate = true ∧
            link.source = .bare reference.id ∧ link.target = .bare action.id) ∨
          (reference.hasUsage .instantiate = false ∧
            link.source = .bare action.id ∧ link.target = .bare reference.id))) := by
  refine ⟨ofEntries_ids_nodup depth actions, ofEntries_links_nodup depth actions,
    fun link h => ofEntries_link_kinds h, ?_, ?_⟩
  · intro id
    simp only [exists_node_ofEntries_iff, ActionEntry.mem_relevant, and_assoc]
  · intro link
    simp only [mem_links_ofEntries, ActionEntry.mem_relevant, ActionEntry.eq_linkTo_iff, and_assoc]

end Graph
end ActionAtlas
