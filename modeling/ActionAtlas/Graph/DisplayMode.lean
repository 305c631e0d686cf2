import ActionAtlas.Graph.Projection

/-!
# Display modes

The three ways to draw a graph, and how their names are read.
-/

namespace ActionAtlas

inductive DisplayMode where
  | reducers
  | splitReducers
  | noReducers
  deriving DecidableEq, Repr

namespace DisplayMode

def all : List DisplayMode := [.reducers, .splitReducers, .noReducers]

def default : DisplayMode := .splitReducers

def name : DisplayMode → String
  | .reducers => "reducers"
  | .splitReducers => "split-reducers"
  | .noReducers => "no-reducers"

def spellings : DisplayMode → List String
  | .reducers => ["reducers"]
  | .splitReducers => ["split-reducers", "splitreducers", "split_reducers"]
  | .noReducers => ["no-reducers", "noreducers", "no_reducers"]

/-- Read a mode; only the case of ASCII letters is ignored. -/
def ofText? (text : String) : Option DisplayMode :=
  let lower := text.map Char.toLower
  all.find? fun mode => mode.spellings.contains lower

def unknownMessage (text : String) : String :=
  "unknown display mode '" ++ text ++ "' (expected reducers, split-reducers or no-reducers)"

end DisplayMode

def Store.view (store : Store) : DisplayMode → Store
  | .reducers => store
  | .splitReducers => store.withSplitReducers
  | .noReducers => store.withoutReducers

end ActionAtlas
