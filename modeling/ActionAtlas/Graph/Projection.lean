import ActionAtlas.Graph.Store

/-!
# Projections of a graph

Two ways to draw a graph without its reducer nodes: leave them out, or fold each of them into the
actions that feed it.
-/

namespace ActionAtlas
namespace Store

/-- A copy without reducer nodes and without the links that they leave behind. -/
def withoutReducers (store : Store) : Store :=
  (store.copy.retainNodes (!·.kind == .reducer)).pruneLinks

def reducerIds (store : Store) : List String :=
  (store.nodes.filter (·.kind == .reducer)).map (·.id)

/-- The first link by which a node feeds one of the given reducers. -/
def feedingLink? (links : List Link) (reducers : List String) (id : String) : Option Link :=
  links.find? fun link => link.source.id == id && reducers.contains link.target.id

/-- An action that feeds a reducer becomes a reducer itself and remembers which one. -/
def foldReducer (links : List Link) (reducers : List String) (node : Node) : Node :=
  if node.kind = .action then
    match feedingLink? links reducers node.id with
    | some link => { node with kind := .reducer, reducer := some link.target.id }
    | none => node
  else node

/-- A copy in which reducers are labels on the actions that feed them. -/
def withSplitReducers (store : Store) : Store :=
  let fresh := store.copy
  ((fresh.retainNodes (!·.kind == .reducer)).mapNodes
    (foldReducer fresh.links fresh.reducerIds)).pruneLinks

end Store
end ActionAtlas
