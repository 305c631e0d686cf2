import ActionAtlas.Graph.ActionTree
import ActionAtlas.Graph.DisplayMode
import ActionAtlas.Graph.Visibility

/-!
# Presentation of a graph

A graph is presented in a mode and, on request, reduced to the actions under one path and what they are
linked with. Paths are those of the graph as it was built, whatever the mode.
-/

namespace ActionAtlas.Graph

def presentAll (graph : Graph) (mode : DisplayMode) : Store :=
  ((Store.ofGraph graph).view mode).copy

/-- The graph in a mode, reduced to a path; none when nothing is declared under the path. -/
def presentOnly? (graph : Graph) (mode : DisplayMode) (path : String) : Option Store :=
  ((ActionTree.ofStore (Store.ofGraph graph)).selectionFor? path).map
    (graph.presentAll mode).applySelection

def present? (graph : Graph) (mode : DisplayMode) : Option String → Option Store
  | none => some (graph.presentAll mode)
  | some path => graph.presentOnly? mode path

end ActionAtlas.Graph
