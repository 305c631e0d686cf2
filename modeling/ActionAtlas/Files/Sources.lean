import ActionAtlas.Files.Basic

/-!
# Source files

The files below a folder that are read for analysis, in the order of their names. Folders with a hidden
name and folders for installed packages are not entered.
-/

namespace ActionAtlas

def isSourceName (name : String) : Bool := Path.extension? name = some "ts"

def isSkippedName (name : String) : Bool :=
  name.toList.head? = some '.' || name = "node_modules"

/-- A source file, by the names that lead to it. -/
structure SourceFile where
  names : List String
  content : ByteArray

namespace FileTree

/-- What was found under each of several names, in the order of the names. -/
def inNameOrder (found : List (String × List SourceFile)) : List SourceFile :=
  (found.mergeSort fun a b => decide (a.1 ≤ b.1)).flatMap (·.2)

mutual

def sources : FileTree → List SourceFile
  | .file _ => []
  | .folder entries => inNameOrder (sourcesOfEntries entries)

def sourcesOfEntries : List (String × FileTree) → List (String × List SourceFile)
  | [] => []
  | (name, .file content) :: rest =>
      (name, if isSourceName name then [⟨[name], content⟩] else []) :: sourcesOfEntries rest
  | (name, .folder entries) :: rest =>
      let below := if isSkippedName name then [] else inNameOrder (sourcesOfEntries entries)
      (name, below.map fun file => { file with names := name :: file.names })
        :: sourcesOfEntries rest

end

end FileTree

/-- The source files below the folder that a path leads to, by their absolute paths; none when the path
leads to no folder. -/
def Files.sources? (files : Files) (folder : String) : Option (List (String × ByteArray)) :=
  match files.locate folder with
  | .error _ => none
  | .ok place =>
      match files.root.at? place with
      | some (.folder entries) =>
          some ((FileTree.folder entries).sources.map fun file =>
            (Files.absolute (place ++ file.names), file.content))
      | _ => none

end ActionAtlas
