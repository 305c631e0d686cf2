import ActionAtlas.Graph.Store
import ActionAtlas.Json.Reading

/-!
# Written form of a graph

A node may be given with `type` for `kind`. A link end is an id or a whole node. Fields that hold what
they hold by default are not written, except for the status of a link.
-/

namespace ActionAtlas

open Json

/-! ## Writing -/

def optionalField (name : String) (value : Option Value) : List (String × Value) :=
  match value with
  | some value => [(name, value)]
  | none => []

def Node.toJson (node : Node) : Value :=
  .obj
    ([("id", .str node.id),
      ("name", .str node.name),
      ("kind", .str node.kind.tag),
      ("filePath", .str node.filePath),
      ("line", .nat node.line.toNat)]
      ++ optionalField "reducer" (node.reducer.map .str)
      ++ optionalField "hidden" (if node.hidden then some (.bool true) else none))

def LinkEnd.toJson : LinkEnd → Value
  | .bare id => .str id
  | .bound node => node.toJson

def Link.toJson (link : Link) : Value :=
  .obj
    ([("source", link.source.toJson), ("target", link.target.toJson)]
      ++ optionalField "filePath" (link.filePath.map .str)
      ++ optionalField "line" (link.line.map fun line => .nat line.toNat)
      ++ [("status", .str link.status.tag)])

def Graph.toJson (graph : Graph) : Value :=
  .obj
    [("nodes", .arr (graph.nodes.map Node.toJson)), ("links", .arr (graph.links.map Link.toJson))]

/-! ## Reading -/

def NodeKind.words : List (String × NodeKind) := NodeKind.all.map fun kind => (kind.tag, kind)

def LinkStatus.words : List (String × LinkStatus) :=
  LinkStatus.all.map fun status => (status.tag, status)

namespace Node

structure Draft where
  id : Option String := none
  name : Option String := none
  kind : Option NodeKind := none
  filePath : Option String := none
  line : Option UInt32 := none
  reducer : Option (Option String) := none
  hidden : Option Bool := none

def record : Record Draft Node where
  wanted := "struct Node"
  start := {}
  field draft name value :=
    match name with
    | "id" => do
        return { draft with id := ← fillOnce name draft.id value.readText }
    | "name" => do
        return { draft with name := ← fillOnce name draft.name value.readText }
    | "kind" | "type" => do
        return { draft with kind := ← fillOnce "kind" draft.kind (value.readWord NodeKind.words) }
    | "filePath" => do
        return { draft with filePath := ← fillOnce name draft.filePath value.readText }
    | "line" => do
        return { draft with line := ← fillOnce name draft.line value.readLine }
    | "reducer" => do
        return { draft with
          reducer := ← fillOnce name draft.reducer (value.readOption Scanned.readText) }
    | "hidden" => do
        return { draft with hidden := ← fillOnce name draft.hidden value.readBool }
    | _ => do
        value.skip
        return draft
  complete draft := do
    let id ← required "id" draft.id
    let name ← required "name" draft.name
    let kind ← required "kind" draft.kind
    let filePath ← required "filePath" draft.filePath
    let line ← required "line" draft.line
    return {
      id := id, name := name, kind := kind, filePath := filePath, line := line
      reducer := draft.reducer.getD none
      hidden := draft.hidden.getD false }
  ofItems items := do
    let wanted := "struct Node with 7 elements"
    let (id, items) ← items.next wanted Scanned.readText
    let (name, items) ← items.next wanted Scanned.readText
    let (kind, items) ← items.next wanted (Scanned.readWord NodeKind.words)
    let (filePath, items) ← items.next wanted Scanned.readText
    let (line, items) ← items.next wanted Scanned.readLine
    let (reducer, items) ← items.next? (Scanned.readOption Scanned.readText)
    let (hidden, items) ← items.next? Scanned.readBool
    return ({
      id := id, name := name, kind := kind, filePath := filePath, line := line
      reducer := reducer.getD none
      hidden := hidden.getD false }, items)

def read : Scanned → Read Node := record.read .value

end Node

/-- A text is an id; anything else has to be a node, and what is wrong with it is not told. -/
def LinkEnd.read (s : Scanned) : Read LinkEnd :=
  match s.readText, Node.read s with
  | .ok id, _ => .ok (.bare id)
  | .error _, .ok node => .ok (.bound node)
  | .error _, .error _ => Read.problem (.noVariant "LinkEnd")

namespace Link

structure Draft where
  source : Option LinkEnd := none
  target : Option LinkEnd := none
  filePath : Option (Option String) := none
  line : Option (Option UInt32) := none
  status : Option LinkStatus := none

def record : Record Draft Link where
  wanted := "struct Link"
  start := {}
  field draft name value :=
    match name with
    | "source" => do
        return { draft with source := ← fillOnce name draft.source (LinkEnd.read value) }
    | "target" => do
        return { draft with target := ← fillOnce name draft.target (LinkEnd.read value) }
    | "filePath" => do
        return { draft with
          filePath := ← fillOnce name draft.filePath (value.readOption Scanned.readText) }
    | "line" => do
        return { draft with line := ← fillOnce name draft.line (value.readOption Scanned.readLine) }
    | "status" => do
        return { draft with
          status := ← fillOnce name draft.status (value.readWord LinkStatus.words) }
    | _ => do
        value.skip
        return draft
  complete draft := do
    let source ← required "source" draft.source
    let target ← required "target" draft.target
    return {
      source := source, target := target
      filePath := draft.filePath.getD none
      line := draft.line.getD none
      status := draft.status.getD .disabled }
  ofItems items := do
    let wanted := "struct Link with 5 elements"
    let (source, items) ← items.next wanted LinkEnd.read
    let (target, items) ← items.next wanted LinkEnd.read
    let (filePath, items) ← items.next? (Scanned.readOption Scanned.readText)
    let (line, items) ← items.next? (Scanned.readOption Scanned.readLine)
    let (status, items) ← items.next? (Scanned.readWord LinkStatus.words)
    return ({
      source := source, target := target
      filePath := filePath.getD none
      line := line.getD none
      status := status.getD .disabled }, items)

def read : Scanned → Read Link := record.read .value

end Link

inductive GraphError where
  | missingField (name : String)
  | unreadable (error : ReadError)

/-- A part of a graph, which has to be there and not null. -/
def Graph.part (value : Value) (name : String) : Except GraphError Value :=
  match value.field? name with
  | none | some .null => .error (.missingField name)
  | some part => .ok part

/-- The graph that a value stands for. Both parts are looked for before either is read. -/
def Graph.ofJson (value : Value) : Except GraphError Graph := do
  let nodes ← Graph.part value "nodes"
  let links ← Graph.part value "links"
  let nodes ← (Scanned.readList Node.read (Scanned.ofValue nodes)).mapError .unreadable
  let links ← (Scanned.readList Link.read (Scanned.ofValue links)).mapError .unreadable
  return { nodes := nodes, links := links }

def Graph.ofText (input : String) : Except GraphError Graph :=
  match Value.ofText input with
  | .error fault => .error (.unreadable (.fault fault))
  | .ok value => Graph.ofJson value

end ActionAtlas
