import ActionAtlas.Entry
import ActionAtlas.Graph.Basic
import ActionAtlas.Text.Segments

/-!
# The graph of an analysis

Every action and every reference that says something becomes a node; every such reference is linked
with its action. Nodes are told apart by id and links by value, and of equals the first one stays.
-/

namespace ActionAtlas

/-- Of the elements with one key, the first; the order is kept. -/
def firstsBy {α κ : Type} [BEq κ] (key : α → κ) : List α → List α
  | [] => []
  | x :: rest => x :: (firstsBy key rest).filter (fun y => !(key y == key x))

/-- The last `depth` segments of a path, which name a reducer. -/
def reducerDisplayName (path : String) (depth : Nat) : String :=
  String.ofList (Segments.lastPieces '/' depth path.toList)

def UsageKind.nodeKind : UsageKind → NodeKind
  | .effect => .effect
  | .method | .constructor => .method
  | .reducer => .reducer
  | .unknown | .instantiate => .unknown

/-- The text shown at a reference: the tail of its path for a reducer, otherwise the member name, or
the kind when there is none. -/
def ReferenceEntry.displayName (reference : ReferenceEntry) (depth : Nat) : String :=
  if reference.dominantKind = .reducer then reducerDisplayName reference.filePath depth
  else reference.dominantName?.getD reference.dominantKind.label

def ReferenceEntry.toNode (reference : ReferenceEntry) (depth : Nat) : Node where
  id := reference.id
  name := reference.displayName depth
  kind := reference.dominantKind.nodeKind
  filePath := reference.filePath
  line := reference.line

def ActionEntry.toNode (action : ActionEntry) : Node where
  id := action.id
  name := action.name
  kind := .action
  filePath := action.filePath
  line := action.line

/-- The link of a reference with its action. A place that creates the action points at it; everywhere
else the action points at the place. -/
def ActionEntry.linkTo (action : ActionEntry) (reference : ReferenceEntry) : Link :=
  let ends :=
    if reference.hasUsage .instantiate then (reference.id, action.id) else (action.id, reference.id)
  { source := .bare ends.1
    target := .bare ends.2
    filePath := some reference.filePath
    line := some reference.line }

/-- The node of an action and those of its references, repetitions included. -/
def ActionEntry.nodes (action : ActionEntry) (depth : Nat) : List Node :=
  action.toNode :: action.relevant.map (·.toNode depth)

def ActionEntry.links (action : ActionEntry) : List Link :=
  action.relevant.map action.linkTo

/-- The graph of an analysis; `depth` says how many path segments name a reducer. -/
def Graph.ofEntries (depth : Nat) (actions : List ActionEntry) : Graph where
  nodes := firstsBy (·.id) (actions.flatMap (·.nodes depth))
  links := firstsBy (fun link => link) (actions.flatMap (·.links))

end ActionAtlas
