/-!
# What an occurrence of an action is used for

A usage says in which role an identifier stands. Some roles carry the name of the member they were
found in. When one reference has several usages, the dominant one names the reference in the graph.
-/

namespace ActionAtlas

/-- The role of a usage, without the name it may carry. -/
inductive UsageKind where
  | unknown
  | instantiate
  | effect
  | method
  | reducer
  | constructor
  deriving DecidableEq, Repr

namespace UsageKind

def all : List UsageKind := [.unknown, .instantiate, .effect, .method, .reducer, .constructor]

/-- The word for a kind inside ids and names. -/
def label : UsageKind → String
  | .unknown => "Unknown"
  | .instantiate => "Instantiate"
  | .effect => "Effect"
  | .method => "Method"
  | .reducer => "Reducer"
  | .constructor => "Constructor"

/-- The word for a kind inside a written analysis. -/
def tag : UsageKind → String
  | .unknown => "UNKNOWN"
  | .instantiate => "INSTANTIATE"
  | .effect => "EFFECT"
  | .method => "METHOD"
  | .reducer => "REDUCER"
  | .constructor => "CONSTRUCTOR"

/-- Kinds that can name a reference, the strongest first. An instantiation never names one. -/
def byPriority : List UsageKind := [.reducer, .effect, .method, .constructor, .unknown]

/-- Position in the priority order; none for a kind that never dominates. -/
def rank? (kind : UsageKind) : Option Nat :=
  byPriority.findIdx? (· == kind)

end UsageKind

/-- A role together with the name of the member that it was found in, where the role has one. -/
inductive Usage where
  | unknown
  | instantiate
  | effect (name : String)
  | method (name : String)
  | reducer
  | constructor (name : String)
  deriving DecidableEq, Repr

namespace Usage

def kind : Usage → UsageKind
  | .unknown => .unknown
  | .instantiate => .instantiate
  | .effect _ => .effect
  | .method _ => .method
  | .reducer => .reducer
  | .constructor _ => .constructor

def name? : Usage → Option String
  | .effect name | .method name | .constructor name => some name
  | .unknown | .instantiate | .reducer => none

def lastOfKind? (usages : List Usage) (kind : UsageKind) : Option Usage :=
  usages.reverse.find? (·.kind == kind)

/-- The usage that names a reference: of the strongest kind present, the last one. -/
def dominant? (usages : List Usage) : Option Usage :=
  UsageKind.byPriority.findSome? (lastOfKind? usages)

end Usage
end ActionAtlas
