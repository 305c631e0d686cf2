/-!
# Nodes, links and graphs

The graph that a viewer draws: nodes for actions and for the places that refer to them, and links
between them.
-/

namespace ActionAtlas

inductive NodeKind where
  | unknown
  | action
  | effect
  | method
  | reducer
  deriving DecidableEq, Repr

namespace NodeKind

def all : List NodeKind := [.unknown, .action, .effect, .method, .reducer]

/-- The word for a kind in running text. -/
def label : NodeKind → String
  | .unknown => "Unknown"
  | .action => "Action"
  | .effect => "Effect"
  | .method => "Method"
  | .reducer => "Reducer"

/-- The word for a kind in a written graph. -/
def tag : NodeKind → String
  | .unknown => "UNKNOWN"
  | .action => "ACTION"
  | .effect => "EFFECT"
  | .method => "METHOD"
  | .reducer => "REDUCER"

end NodeKind

structure Node where
  id : String
  name : String
  kind : NodeKind
  filePath : String
  line : UInt32
  /-- The reducer node that an action was folded into. -/
  reducer : Option String := none
  hidden : Bool := false
  deriving DecidableEq, Repr

/-- Action and reducer nodes are the ones that a selection speaks about. -/
def Node.isSelectable (node : Node) : Bool :=
  node.kind == .action || node.kind == .reducer

inductive LinkStatus where
  | disabled
  | activeInput
  | activeOutput
  deriving DecidableEq, Repr

namespace LinkStatus

def all : List LinkStatus := [.disabled, .activeInput, .activeOutput]

def tag : LinkStatus → String
  | .disabled => "DISABLED"
  | .activeInput => "ACTIVE_INPUT"
  | .activeOutput => "ACTIVE_OUTPUT"

end LinkStatus

/-- One end of a link: the bare id of a node, or a copy of the node itself. -/
inductive LinkEnd where
  | bare (id : String)
  | bound (node : Node)
  deriving DecidableEq, Repr

def LinkEnd.id : LinkEnd → String
  | .bare id => id
  | .bound node => node.id

structure Link where
  source : LinkEnd
  target : LinkEnd
  filePath : Option String := none
  line : Option UInt32 := none
  status : LinkStatus := .disabled
  deriving DecidableEq, Repr

def Link.touches (link : Link) (id : String) : Bool :=
  link.source.id == id || link.target.id == id

structure Graph where
  nodes : List Node
  links : List Link
  deriving DecidableEq, Repr

end ActionAtlas
