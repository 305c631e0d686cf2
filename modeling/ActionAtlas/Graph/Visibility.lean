import ActionAtlas.Graph.Store

/-!
# Showing a part of a graph

A selection says of some ids whether they are wanted. Applying it shows the wanted actions and
reducers, and every node at a link that no unwanted node touches.
-/

namespace ActionAtlas

/-- Wanted (`true`) and unwanted (`false`) ids; the first entry for an id counts. -/
abbrev Selection := List (String × Bool)

namespace Store

def lastLive? (store : Store) (id : String) : Option Node :=
  store.nodes.reverse.find? (·.id == id)

def blocked (selection : Selection) (node : Node) : Bool :=
  node.isSelectable && selection.lookup node.id == some false

/-- Whether a link end may be shown: the id is that of a live node and the last one is not blocked. -/
def endOpen (store : Store) (selection : Selection) (linkEnd : LinkEnd) : Bool :=
  (store.lastLive? linkEnd.id).any (!blocked selection ·)

def linkOpen (store : Store) (selection : Selection) (link : Link) : Bool :=
  store.endOpen selection link.source && store.endOpen selection link.target

/-- What an id gets: shown at an open link, otherwise shown only as a wanted selectable node. -/
def hiddenBy (store : Store) (selection : Selection) (id : String) : Bool :=
  !(store.links.any fun link => store.linkOpen selection link && link.touches id) &&
    !((store.lastLive? id).any fun node =>
        node.isSelectable && selection.lookup id == some true)

def applySelection (store : Store) (selection : Selection) : Store :=
  store.mapNodes fun node => { node with hidden := store.hiddenBy selection node.id }

def showAll (store : Store) : Store :=
  store.mapNodes fun node => { node with hidden := false }

end Store
end ActionAtlas
