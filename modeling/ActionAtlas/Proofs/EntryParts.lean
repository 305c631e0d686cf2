import ActionAtlas.Proofs.EntryOrder

/-!
# Entries in parts

The graph of two lists of entries put together is the graph of the first list, followed by what the
second one adds: nodes under new ids and new links. So the graphs of the parts of a project can be
put together without going back to the entries. An action may also be told in parts: a second entry
for it adds its references and no node of its own.
-/

namespace ActionAtlas
namespace Graph

/-! ## Lists of entries put together -/

theorem ofEntries_nodes_append (depth : Nat) (actions others : List ActionEntry) :
    (ofEntries depth (actions ++ others)).nodes =
      (ofEntries depth actions).nodes ++ (ofEntries depth others).nodes.filter fun node =>
        node.id ∉ (ofEntries depth actions).nodes.map (·.id) := by
  have hnodes := firstsBy_append Node.id (actions.flatMap (·.nodes depth))
    (others.flatMap (·.nodes depth))
  rw [← List.flatMap_append] at hnodes
  exact hnodes

theorem ofEntries_links_append (depth : Nat) (actions others : List ActionEntry) :
    (ofEntries depth (actions ++ others)).links =
      (ofEntries depth actions).links ++ (ofEntries depth others).links.filter fun link =>
        link ∉ (ofEntries depth actions).links := by
  have hlinks := firstsBy_append (fun link : Link => link) (actions.flatMap (·.links))
    (others.flatMap (·.links))
  rw [List.map_id', ← List.flatMap_append] at hlinks
  exact hlinks

theorem ofEntries_append_self (depth : Nat) (actions : List ActionEntry) :
    ofEntries depth (actions ++ actions) = ofEntries depth actions := by
  simp only [ofEntries, List.flatMap_append, mk.injEq]
  constructor
  · exact firstsBy_append_known fun node hnode => ⟨node, hnode, rfl⟩
  · exact firstsBy_append_known fun link hlink => ⟨link, hlink, rfl⟩

/-! ## One action in two entries -/

section Told

variable (name filePath : String) (line other : UInt32) (first second : List ReferenceEntry)

theorem nodes_told (depth : Nat) :
    (⟨name, filePath, line, first ++ second⟩ : ActionEntry).nodes depth =
      (⟨name, filePath, line, first⟩ : ActionEntry).nodes depth ++
        (⟨name, filePath, other, second⟩ : ActionEntry).relevant.map (·.toNode depth) := by
  simp only [ActionEntry.nodes, ActionEntry.relevant, List.filter_append, List.map_append,
    List.cons_append]
  rfl

theorem links_told :
    (⟨name, filePath, line, first ++ second⟩ : ActionEntry).links =
      (⟨name, filePath, line, first⟩ : ActionEntry).links ++
        (⟨name, filePath, other, second⟩ : ActionEntry).links := by
  simp only [ActionEntry.links, ActionEntry.relevant, List.filter_append, List.map_append]
  rfl

variable (depth : Nat) (before after : List ActionEntry)

/-- The second entry makes the node of the action again, under an id that is known by then. -/
theorem ofEntries_nodes_told :
    (ofEntries depth (before ++ ⟨name, filePath, line, first⟩ ::
        ⟨name, filePath, other, second⟩ :: after)).nodes =
      (ofEntries depth (before ++ ⟨name, filePath, line, first ++ second⟩ :: after)).nodes := by
  let action : ActionEntry := ⟨name, filePath, line, first⟩
  let again : ActionEntry := ⟨name, filePath, other, second⟩
  have hknown : ∃ node ∈ before.flatMap (·.nodes depth) ++ action.nodes depth,
      node.id = again.toNode.id :=
    ⟨action.toNode, by simp [ActionEntry.nodes], rfl⟩
  have hdrop := firstsBy_drop_known Node.id hknown
    (again.relevant.map (·.toNode depth) ++ after.flatMap (·.nodes depth))
  simp only [ofEntries, List.flatMap_append, List.flatMap_cons,
    nodes_told name filePath line other first second]
  rw [List.append_assoc, List.append_assoc] at hdrop
  rw [List.append_assoc]
  exact hdrop

theorem ofEntries_links_told :
    (ofEntries depth (before ++ ⟨name, filePath, line, first⟩ ::
        ⟨name, filePath, other, second⟩ :: after)).links =
      (ofEntries depth (before ++ ⟨name, filePath, line, first ++ second⟩ :: after)).links := by
  simp only [ofEntries, List.flatMap_append, List.flatMap_cons,
    links_told name filePath line other first second, List.append_assoc]

end Told

/-- Two lists of entries give the graph of the first, followed by what is new in the graph of the
second. An action whose references are told by two entries in a row gives what one entry with all of
them gives. Telling everything twice changes nothing. -/
theorem ofEntries_in_parts (depth : Nat) (actions others : List ActionEntry) :
    (ofEntries depth (actions ++ others)).nodes =
      (ofEntries depth actions).nodes ++ (ofEntries depth others).nodes.filter (fun node =>
        node.id ∉ (ofEntries depth actions).nodes.map (·.id)) ∧
    (ofEntries depth (actions ++ others)).links =
      (ofEntries depth actions).links ++ (ofEntries depth others).links.filter (fun link =>
        link ∉ (ofEntries depth actions).links) ∧
    (∀ name filePath line otherLine first second,
      ofEntries depth (actions ++ ⟨name, filePath, line, first⟩ ::
          ⟨name, filePath, otherLine, second⟩ :: others) =
        ofEntries depth (actions ++ ⟨name, filePath, line, first ++ second⟩ :: others)) ∧
    ofEntries depth (actions ++ actions) = ofEntries depth actions := by
  refine ⟨ofEntries_nodes_append depth actions others, ofEntries_links_append depth actions others,
    ?_, ofEntries_append_self depth actions⟩
  intro name filePath line otherLine first second
  rw [Graph.mk.injEq]
  exact ⟨ofEntries_nodes_told name filePath line otherLine first second depth actions others,
    ofEntries_links_told name filePath line otherLine first second depth actions others⟩

end Graph
end ActionAtlas
