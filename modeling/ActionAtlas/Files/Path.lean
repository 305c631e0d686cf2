import ActionAtlas.Text.Segments

/-!
# Paths as texts

Names in a path are set apart by slashes. Slashes next to each other and single dots that do not begin
a path add no names.
-/

namespace ActionAtlas.Path

def isAbsolute (path : String) : Bool := path.toList.head? = some '/'

/-- The names that a path consists of; a leading dot counts as one. -/
def names (path : String) : List String :=
  match pathSegments path with
  | [] => []
  | first :: rest =>
      (if first = "" then [] else [first]) ++ rest.filter fun name => name ≠ "" ∧ name ≠ "."

def ofNames (absolute : Bool) (names : List String) : String :=
  (if absolute then "/" else "") ++ "/".intercalate names

/-- The path to the folder that holds what a path leads to; none for the top and for the empty path. -/
def parent? (path : String) : Option String :=
  match names path with
  | [] => none
  | names => some (ofNames (isAbsolute path) names.dropLast)

/-- A path and the paths to the folders around it, from the inside out. -/
def enclosing (path : String) : List String :=
  let names := names path
  let absolute := isAbsolute path
  (List.range names.length).map fun count => ofNames absolute (names.take (names.length - count))

/-- What follows the last dot of a name, unless the name has no other dot than its first character. -/
def extension? (name : String) : Option String :=
  match (Segments.split '.' name.toList).reverse with
  | last :: before =>
      if before.length = 0 ∨ before = [[]] then none else some (String.ofList last)
  | [] => none

end ActionAtlas.Path
