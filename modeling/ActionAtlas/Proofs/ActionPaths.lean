import ActionAtlas.Proofs.GraphBuild
import ActionAtlas.Proofs.PathQueries

/-!
# The path of one action

The id of an action can stand behind its file in a path, as a last segment that selects this action
alone. Ids of a built graph hold the path of the file and the name of the action, though, and a path is
cut at every slash: an id with a slash in it is no segment. So the way down to a single action is open
just where neither path nor name has a slash, and no file lies where the id would lead to.
-/

namespace ActionAtlas
namespace ActionTree

theorem trimSlash_append {front back : String} (hback : back.toList ≠ [])
    (h : '/' ∉ back.toList) : trimSlash (front ++ back) = front ++ back := by
  obtain ⟨last, before, hlast⟩ := List.exists_cons_of_ne_nil (mt List.reverse_eq_nil_iff.mp hback)
  have hmem : last ∈ back.toList := by
    rw [← List.mem_reverse, hlast]
    exact List.mem_cons_self
  have hreverse : (front ++ back).toList.reverse = last :: (before ++ front.toList.reverse) := by
    rw [String.toList_append, List.reverse_append, hlast, List.cons_append]
  unfold trimSlash
  rw [hreverse]
  split
  case h_1 hslash =>
    rw [List.cons.injEq] at hslash
    exact absurd (hslash.1 ▸ hmem) h
  case h_2 => rfl

theorem length_le_trimSlash (path : String) : path.length ≤ (trimSlash path).length + 1 := by
  unfold trimSlash
  split
  case h_1 rest hrest =>
    have hlength := congrArg List.length hrest
    rw [List.length_reverse, String.length_toList, List.length_cons] at hlength
    simp [hlength]
  case h_2 => exact Nat.le_succ path.length

end ActionTree

namespace Graph

variable {depth : Nat} {actions : List ActionEntry}

theorem ofEntries_action_id {node : Node} (h : node ∈ (ofEntries depth actions).nodes)
    (hkind : node.kind = .action) :
    node.id = "Action::" ++ node.filePath ++ "::" ++ node.name := by
  rcases ofEntries_node_cases h with ⟨action, _, rfl⟩ | ⟨_, _, reference, _, rfl⟩
  · rfl
  · exact absurd hkind (UsageKind.nodeKind_ne_action _)

theorem slash_notMem_action_id {node : Node} (h : node ∈ (ofEntries depth actions).nodes)
    (hkind : node.kind = .action) :
    '/' ∉ node.id.toList ↔ '/' ∉ node.filePath.toList ∧ '/' ∉ node.name.toList := by
  rw [ofEntries_action_id h hkind]
  simp

theorem pathSegments_action_path {node : Node} (h : node ∈ (ofEntries depth actions).nodes)
    (hkind : node.kind = .action) (hslash : '/' ∉ node.id.toList) :
    ActionTree.trimSlash (node.filePath ++ "/" ++ node.id) = node.filePath ++ "/" ++ node.id ∧
      pathSegments (node.filePath ++ "/" ++ node.id) = pathSegments node.filePath ++ [node.id] := by
  have hid : node.id.toList ≠ [] := by simp [ofEntries_action_id h hkind]
  refine ⟨ActionTree.trimSlash_append hid hslash, ?_⟩
  rw [pathSegments_append, pathSegments_of_slash_notMem hslash]

/-- In a file at or below the path of an action, no action has the id that the path ends in: an id is
longer than the path of its file. -/
theorem action_id_ne_of_under {node other : Node} (hother : other ∈ (ofEntries depth actions).nodes)
    (hkind : other.kind = .action)
    (hunder : pathSegments (ActionTree.trimSlash (node.filePath ++ "/" ++ node.id)) <+:
      pathSegments other.filePath) : other.id ≠ node.id := by
  intro hid
  have hpath := length_le_of_pathSegments_prefix hunder
  have htrim := ActionTree.length_le_trimSlash (node.filePath ++ "/" ++ node.id)
  have hlong := congrArg String.length (ofEntries_action_id hother hkind)
  rw [hid] at hlong
  simp only [String.length_append] at htrim hlong
  have hword : "Action::".length = 8 := by decide
  omega

/-- The path down to one action of a built graph selects this action exactly when neither its file path
nor its name has a slash in it and no action lies in a file at or below the path itself. -/
theorem idsUnder?_action_iff (depth : Nat) (actions : List ActionEntry) (node : Node)
    (hnode : node ∈ (ofEntries depth actions).nodes) (hkind : node.kind = .action) :
    let graph := ofEntries depth actions
    let path := node.filePath ++ "/" ++ node.id
    (ActionTree.ofStore (Store.ofGraph graph)).idsUnder? path = some [node.id] ↔
      '/' ∉ node.filePath.toList ∧ '/' ∉ node.name.toList ∧
      ∀ other ∈ graph.nodes, other.kind = .action →
        ¬ pathSegments path <+: pathSegments other.filePath := by
  intro graph path
  obtain ⟨ordered, holds⟩ := ActionTree.ofStore_holds (Store.ofGraph graph)
  have hactions : ∀ other, other ∈ (Store.ofGraph graph).nodes.filter (·.kind == .action) ↔
      other ∈ graph.nodes ∧ other.kind = .action := by simp
  have hsome := pathSegments_ne_nil (ActionTree.trimSlash path)
  constructor
  · intro hanswer
    have hcases := holds.answer_cases hsome hanswer (List.mem_singleton_self node.id)
    rcases hcases with ⟨other, hother, hunder, hid⟩ | ⟨hfree, other, hother, hends, hid⟩
    · obtain ⟨hgraph, hotherKind⟩ := (hactions other).mp hother
      exact absurd hid (action_id_ne_of_under hgraph hotherKind hunder)
    · -- the id is a segment, and segments have no slash
      have hslash : '/' ∉ node.id.toList := by
        apply slash_notMem_of_mem_pathSegments
        rw [← hends, hid]
        exact List.mem_append_right _ (List.mem_singleton_self _)
      obtain ⟨hfile, hname⟩ := (slash_notMem_action_id hnode hkind).mp hslash
      have htrim := (pathSegments_action_path hnode hkind hslash).1
      refine ⟨hfile, hname, ?_⟩
      intro beyond hbeyond hbeyondKind
      have hapart := hfree beyond ((hactions beyond).mpr ⟨hbeyond, hbeyondKind⟩)
      rwa [htrim] at hapart
  · rintro ⟨hfile, hname, hfree⟩
    have hslash := (slash_notMem_action_id hnode hkind).mpr ⟨hfile, hname⟩
    obtain ⟨htrim, hsegments⟩ := pathSegments_action_path hnode hkind hslash
    rw [ActionTree.idsUnder?]
    rw [htrim] at hsome ⊢
    have hapart : ∀ other ∈ (Store.ofGraph graph).nodes.filter (·.kind == .action),
        ¬ pathSegments path <+: pathSegments other.filePath := by
      intro other hother
      obtain ⟨hgraph, hotherKind⟩ := (hactions other).mp hother
      exact hfree other hgraph hotherKind
    obtain ⟨hexact, _⟩ := holds.idsBelow_of_not_under hsome hapart
    exact hexact node ((hactions node).mpr ⟨hnode, hkind⟩) hsegments.symm

/-- An action of a file at the top can be asked for by its id. -/
theorem idsUnder?_action_at_top :
    let actions : List ActionEntry := [⟨"Add", "actions.ts", 1, []⟩, ⟨"Drop", "a/b.ts", 2, []⟩]
    let node : Node := ⟨"Action::actions.ts::Add", "Add", .action, "actions.ts", 1, none, false⟩
    let tree := ActionTree.ofStore (Store.ofGraph (ofEntries 1 actions))
    node ∈ (ofEntries 1 actions).nodes ∧ node.kind = .action ∧
    tree.idsUnder? "actions.ts/Action::actions.ts::Add" = some ["Action::actions.ts::Add"] := by
  intro actions node tree
  have hnode : node ∈ (ofEntries 1 actions).nodes := by decide +kernel
  refine ⟨hnode, rfl, (idsUnder?_action_iff 1 actions node hnode rfl).mpr ⟨?_, ?_, ?_⟩⟩
  · decide
  · decide
  · decide +kernel

/-- An action of a file in a folder cannot: its id is cut where the path of the file is. -/
theorem idsUnder?_action_in_folder :
    let actions : List ActionEntry := [⟨"Add", "app/actions.ts", 1, []⟩]
    let tree := ActionTree.ofStore (Store.ofGraph (ofEntries 1 actions))
    ∃ node ∈ (ofEntries 1 actions).nodes, node.kind = .action ∧
      tree.idsUnder? (node.filePath ++ "/" ++ node.id) = none := by
  decide +kernel

end Graph
end ActionAtlas
