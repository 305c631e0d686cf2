import ActionAtlas.Graph.Basic

/-!
# Graph store

A store holds the nodes of a graph in slots, one per node that it was made from. A slot can be
retired and its node edited, but it keeps the id that its node had when the store was made: that key
is what look-ups go by. Copying a store makes new slots from the live nodes.
-/

namespace ActionAtlas

/-- One place of a store: the node there now, whether it is live, and the key it is found under. -/
structure Slot where
  key : String
  node : Node
  live : Bool
  deriving DecidableEq, Repr

structure Store where
  slots : List Slot
  links : List Link
  deriving DecidableEq, Repr

namespace Store

def ofData (nodes : List Node) (links : List Link) : Store where
  slots := nodes.map fun node => { key := node.id, node := node, live := true }
  links := links

def ofGraph (graph : Graph) : Store := ofData graph.nodes graph.links

def empty : Store := ofData [] []

def nodes (store : Store) : List Node :=
  (store.slots.filter (·.live)).map (·.node)

def nodeCount (store : Store) : Nat := (store.slots.filter (·.live)).length

/-- The present content of the last slot made with this key, live or not. -/
def node? (store : Store) (key : String) : Option Node :=
  (store.slots.reverse.find? (·.key == key)).map (·.node)

def toGraph (store : Store) : Graph where
  nodes := store.nodes
  links := store.links

/-- A copy with fresh slots, so that look-ups go by the present ids. -/
def copy (store : Store) : Store := ofData store.nodes store.links

def mapNodes (store : Store) (change : Node → Node) : Store :=
  { store with
    slots := store.slots.map fun slot =>
      if slot.live then { slot with node := change slot.node } else slot }

/-- Retire every live node that is not kept. Links stay. -/
def retainNodes (store : Store) (keep : Node → Bool) : Store :=
  { store with slots := store.slots.map fun slot => { slot with live := slot.live && keep slot.node } }

def mapLinks (store : Store) (change : List Link → List Link) : Store :=
  { store with links := change store.links }

def changeFirst (test : Slot → Bool) (change : Node → Node) : List Slot → List Slot
  | [] => []
  | slot :: rest =>
      if test slot then { slot with node := change slot.node } :: rest
      else slot :: changeFirst test change rest

/-- Change the node that a look-up finds under a key, live or not. -/
def changeNode (store : Store) (key : String) (change : Node → Node) : Store :=
  { store with slots := (changeFirst (·.key == key) change store.slots.reverse).reverse }

/-- Change the live node at a position among the live nodes. -/
def changeAt (change : Node → Node) : Nat → List Slot → List Slot
  | _, [] => []
  | position, slot :: rest =>
      if slot.live then
        match position with
        | 0 => { slot with node := change slot.node } :: rest
        | before + 1 => slot :: changeAt change before rest
      else slot :: changeAt change position rest

def changeLive (store : Store) (position : Nat) (change : Node → Node) : Store :=
  { store with slots := changeAt change position store.slots }

/-- Drop every link with an end that is not the id of a live node. -/
def pruneLinks (store : Store) : Store :=
  let ids := store.nodes.map (·.id)
  store.mapLinks (·.filter fun link => ids.contains link.source.id && ids.contains link.target.id)

def visibleNodes (store : Store) : List Node :=
  store.nodes.filter (!·.hidden)

/-- A bound end answers with its own flag; a bare end is looked up, and an unknown one is shown. -/
def endHidden (store : Store) : LinkEnd → Bool
  | .bound node => node.hidden
  | .bare id => (store.node? id).any (·.hidden)

def visibleLinks (store : Store) : List Link :=
  store.links.filter fun link => !store.endHidden link.source && !store.endHidden link.target

def visibleGraph (store : Store) : Graph where
  nodes := store.visibleNodes
  links := store.visibleLinks

end Store
end ActionAtlas
