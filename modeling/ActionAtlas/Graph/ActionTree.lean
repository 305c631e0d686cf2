import ActionAtlas.Graph.Visibility
import ActionAtlas.Text.Segments

/-!
# Actions by path

The actions of a graph, filed under the segments of the paths of their files. A path selects all
actions below it; below a file, the id of one of its actions selects that one.
-/

namespace ActionAtlas

/-- The actions filed here and the branches below, in the order in which they came up. -/
inductive ActionTree where
  | mk (actions : List String) (children : List (String × ActionTree))

namespace ActionTree

def empty : ActionTree := .mk [] []

def actions : ActionTree → List String
  | .mk actions _ => actions

def children : ActionTree → List (String × ActionTree)
  | .mk _ children => children

def isEmpty (tree : ActionTree) : Bool :=
  tree.children.isEmpty && tree.actions.isEmpty

/-- Replace the branch of a segment, or add one at the end. -/
def setChild (segment : String) (branch : ActionTree) :
    List (String × ActionTree) → List (String × ActionTree)
  | [] => [(segment, branch)]
  | (name, child) :: rest =>
      if name = segment then (name, branch) :: rest
      else (name, child) :: setChild segment branch rest

def child? (tree : ActionTree) (segment : String) : Option ActionTree :=
  tree.children.lookup segment

def insert (id : String) : List String → ActionTree → ActionTree
  | [], .mk actions children => .mk (actions ++ [id]) children
  | segment :: rest, .mk actions children =>
      let branch := ((children.lookup segment).getD empty).insert id rest
      .mk actions (setChild segment branch children)

def ofStore (store : Store) : ActionTree :=
  (store.nodes.filter (·.kind == .action)).foldl
    (fun tree node => tree.insert node.id (pathSegments node.filePath)) empty

mutual

/-- All ids of a tree: those filed here, then those of the branches in order. -/
def ids : ActionTree → List String
  | .mk actions children => actions ++ idsOfChildren children

def idsOfChildren : List (String × ActionTree) → List String
  | [] => []
  | (_, child) :: rest => ids child ++ idsOfChildren rest

end

/-- The ids below a list of segments; the last segment may be the id of an action filed there. -/
def idsBelow : List String → ActionTree → Option (List String)
  | [], tree => some tree.ids
  | segment :: rest, tree =>
      match tree.child? segment with
      | some branch => idsBelow rest branch
      | none => if rest.isEmpty && tree.actions.contains segment then some [segment] else none

/-- A path without one slash at its end. -/
def trimSlash (path : String) : String :=
  match path.toList.reverse with
  | '/' :: rest => String.ofList rest.reverse
  | _ => path

/-- The ids below a path; none when the tree does not know the path. -/
def idsUnder? (tree : ActionTree) (path : String) : Option (List String) :=
  idsBelow (pathSegments (trimSlash path)) tree

/-- The selection that wants exactly the actions below a path. -/
def selectionFor? (tree : ActionTree) (path : String) : Option Selection :=
  (tree.idsUnder? path).map fun shown =>
    tree.ids.map fun id => (id, shown.contains id)

end ActionTree
end ActionAtlas
