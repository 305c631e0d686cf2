import ActionAtlas.Graph.Store

/-!
# Counting a graph
-/

namespace ActionAtlas

structure Statistics where
  nodeCount : Nat
  linkCount : Nat
  actions : Nat
  effects : Nat
  methods : Nat
  reducers : Nat
  unknown : Nat
  hidden : Nat
  deriving DecidableEq, Repr

namespace Statistics

def countKind (store : Store) (kind : NodeKind) : Nat :=
  store.nodes.countP (·.kind == kind)

def ofStore (store : Store) : Statistics where
  nodeCount := store.nodeCount
  linkCount := store.links.length
  actions := countKind store .action
  effects := countKind store .effect
  methods := countKind store .method
  reducers := countKind store .reducer
  unknown := countKind store .unknown
  hidden := store.nodes.countP (·.hidden)

/-- One line for people; hidden nodes are mentioned only when there are some. -/
def text (s : Statistics) : String :=
  let counts := s!"{s.nodeCount} nodes ({s.actions} actions, {s.effects} effects, "
    ++ s!"{s.methods} methods, {s.reducers} reducers, {s.unknown} unknown), {s.linkCount} links"
  if s.hidden = 0 then counts else counts ++ s!", {s.hidden} hidden"

end Statistics
end ActionAtlas
