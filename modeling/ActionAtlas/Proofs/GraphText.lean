import ActionAtlas.Graph.Json
import ActionAtlas.Proofs.JsonReading
import ActionAtlas.Proofs.StoreView

/-!
# Written graphs read back

A field that is not written stands for the one value that its reader takes for a missing field, so
nothing is lost by leaving it out.
-/

namespace ActionAtlas

open Json

/-! ## Nodes -/

namespace Node

theorem toJson_integral (node : Node) : node.toJson.Integral := by
  obtain ⟨id, name, kind, filePath, line, reducer, hidden⟩ := node
  cases reducer <;> cases hidden <;> simp [toJson, optionalField]

theorem toJson_fits (node : Node) {level : Nat} (hlevel : level < Scanned.nestingLimit) :
    node.toJson.Fits level := by
  obtain ⟨id, name, kind, filePath, line, reducer, hidden⟩ := node
  cases reducer <;> cases hidden <;> simp [toJson, optionalField, hlevel]

@[simp] theorem readWord_tag (kind : NodeKind) :
    Scanned.readWord NodeKind.words (.string (.ok kind.tag)) = .ok kind := by
  cases kind <;> rfl

theorem toJson_sorted (node : Node) :
    node.toJson.sorted = .obj
      ([("filePath", .str node.filePath)]
        ++ optionalField "hidden" (if node.hidden then some (.bool true) else none)
        ++ [("id", .str node.id),
          ("kind", .str node.kind.tag),
          ("line", .nat node.line.toNat),
          ("name", .str node.name)]
        ++ optionalField "reducer" (node.reducer.map .str)) := by
  obtain ⟨id, name, kind, filePath, line, reducer, hidden⟩ := node
  cases reducer <;> cases hidden <;> rfl

theorem read_sorted (node : Node) : Node.read (Scanned.ofValue node.toJson.sorted) = .ok node := by
  rw [toJson_sorted]
  obtain ⟨id, name, kind, filePath, line, reducer, hidden⟩ := node
  cases reducer <;> cases hidden <;>
    simp [optionalField, Scanned.ofValue, Scanned.ofFields, Node.read, Record.read, record, foldFields]

end Node

namespace LinkEnd

theorem toJson_integral (linkEnd : LinkEnd) : linkEnd.toJson.Integral := by
  cases linkEnd with
  | bare id => exact .str id
  | bound node => exact node.toJson_integral

theorem toJson_fits (linkEnd : LinkEnd) {level : Nat} (hlevel : level < Scanned.nestingLimit) :
    linkEnd.toJson.Fits level := by
  cases linkEnd with
  | bare id => exact .str id
  | bound node => exact node.toJson_fits hlevel

theorem read_sorted (linkEnd : LinkEnd) :
    LinkEnd.read (Scanned.ofValue linkEnd.toJson.sorted) = .ok linkEnd := by
  cases linkEnd with
  | bare id => rfl
  | bound node =>
      have hnode := node.read_sorted
      have htext : Scanned.readText (Scanned.ofValue node.toJson.sorted) =
          Read.problem (.wrongType .object "a string") := rfl
      simp only [LinkEnd.read, toJson, htext, hnode]
      rfl

end LinkEnd

namespace Link

theorem toJson_integral (link : Link) : link.toJson.Integral := by
  obtain ⟨source, target, filePath, line, status⟩ := link
  have hsource := source.toJson_integral
  have htarget := target.toJson_integral
  cases filePath <;> cases line <;> simp [toJson, optionalField, hsource, htarget]

theorem toJson_fits (link : Link) {level : Nat} (hlevel : level + 1 < Scanned.nestingLimit) :
    link.toJson.Fits level := by
  obtain ⟨source, target, filePath, line, status⟩ := link
  have hsource := source.toJson_fits hlevel
  have htarget := target.toJson_fits hlevel
  have hhere : level < Scanned.nestingLimit := by omega
  cases filePath <;> cases line <;> simp [toJson, optionalField, hsource, htarget, hhere]

@[simp] theorem readWord_tag (status : LinkStatus) :
    Scanned.readWord LinkStatus.words (.string (.ok status.tag)) = .ok status := by
  cases status <;> rfl

theorem toJson_sorted (link : Link) :
    link.toJson.sorted = .obj
      (optionalField "filePath" (link.filePath.map .str)
        ++ optionalField "line" (link.line.map fun line => .nat line.toNat)
        ++ [("source", link.source.toJson.sorted),
          ("status", .str link.status.tag),
          ("target", link.target.toJson.sorted)]) := by
  obtain ⟨source, target, filePath, line, status⟩ := link
  cases filePath <;> cases line <;> rfl

theorem read_sorted (link : Link) : Link.read (Scanned.ofValue link.toJson.sorted) = .ok link := by
  rw [toJson_sorted]
  obtain ⟨source, target, filePath, line, status⟩ := link
  have hsource := source.read_sorted
  have htarget := target.read_sorted
  cases filePath <;> cases line <;>
    simp [optionalField, Scanned.ofValue, Scanned.ofFields, Link.read, Record.read, record, foldFields,
      hsource, htarget]

end Link

/-! ## Graphs -/

namespace Graph

theorem toJson_integral (graph : Graph) : graph.toJson.Integral := by
  simp [toJson, Node.toJson_integral, Link.toJson_integral]

theorem toJson_fits (graph : Graph) : graph.toJson.Fits 0 := by
  have hnode (node : Node) : node.toJson.Fits 2 := node.toJson_fits (by decide)
  have hlink (link : Link) : link.toJson.Fits 2 := link.toJson_fits (by decide)
  have hlevel : 1 < Scanned.nestingLimit := by decide
  simp [toJson, hnode, hlink, hlevel, Nat.zero_lt_of_lt hlevel]

theorem toJson_sorted (graph : Graph) :
    graph.toJson.sorted = .obj
      [("links", .arr (graph.links.map (·.toJson.sorted))),
        ("nodes", .arr (graph.nodes.map (·.toJson.sorted)))] := by
  have hsorted : graph.toJson.sorted = .obj
      [("links", .arr (Value.sortedItems (graph.links.map Link.toJson))),
        ("nodes", .arr (Value.sortedItems (graph.nodes.map Node.toJson)))] := rfl
  simp only [hsorted, Value.sortedItems_eq_map, List.map_map, Function.comp_def]

-- The parts are looked up by name, so it does not matter that the links come first once sorted.
theorem ofJson_sorted (graph : Graph) : Graph.ofJson graph.toJson.sorted = .ok graph := by
  have hnodes := Scanned.readList_ofValue (·.toJson.sorted) graph.nodes
    fun node _ => node.read_sorted
  have hlinks := Scanned.readList_ofValue (·.toJson.sorted) graph.links
    fun link _ => link.read_sorted
  have hnodesPart : part graph.toJson.sorted "nodes" =
      .ok (.arr (graph.nodes.map (·.toJson.sorted))) := by rw [toJson_sorted]; rfl
  have hlinksPart : part graph.toJson.sorted "links" =
      .ok (.arr (graph.links.map (·.toJson.sorted))) := by rw [toJson_sorted]; rfl
  rw [Graph.ofJson, hnodesPart, hlinksPart]
  simp only [bind, Except.bind, hnodes, hlinks]
  rfl

theorem ofText_written (graph : Graph) :
    Graph.ofText graph.toJson.compact = .ok graph ∧
      Graph.ofText graph.toJson.pretty = .ok graph := by
  obtain ⟨hcompact, hpretty⟩ := Value.ofText_written graph.toJson_integral graph.toJson_fits
  simp only [Graph.ofText, hcompact, hpretty, ofJson_sorted, and_self]

/-- The store read from either layout of a written graph gives the graph back. -/
theorem toGraph_ofText_written (graph : Graph) :
    let reread text := (Graph.ofText text).map fun read => (Store.ofGraph read).toGraph
    reread graph.toJson.compact = .ok graph ∧ reread graph.toJson.pretty = .ok graph := by
  intro reread
  have hview : (Store.ofGraph graph).toGraph = graph := by
    rw [Store.toGraph, Store.nodes_ofGraph, Store.links_ofGraph]
  obtain ⟨hcompact, hpretty⟩ := graph.ofText_written
  simp only [reread, hcompact, hpretty, Except.map, hview, and_self]

end Graph
end ActionAtlas
