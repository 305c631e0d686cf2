import ActionAtlas.Analysis
import ActionAtlas.Files.Sources
import ActionAtlas.Options.Basic

/-!
# Analysis of a folder

The source files below a folder are read and analysed together. A file that is no text stops the
analysis; a file that is no TypeScript is left out with a warning.
-/

namespace ActionAtlas

inductive FolderError where
  | pattern (invalid : InvalidPattern)
  | folderNotFound (folder : String)
  | unreadable (path : String) (error : FileError)
  deriving DecidableEq, Repr

namespace Analysis

def textsOf : List (String × ByteArray) → Except FolderError (List (String × String))
  | [] => .ok []
  | (path, content) :: rest =>
      match Files.textOf content with
      | .error e => .error (.unreadable path e)
      | .ok text => do return (path, text) :: (← textsOf rest)

def ofFolder (files : Files) (options : Options) : Except FolderError Analysis := do
  let filters ←
    match options.filters with
    | .ok filters => pure filters
    | .error invalid => .error (.pattern invalid)
  match files.sources? options.folder with
  | none => .error (.folderNotFound options.folder)
  | some found => return ofSources filters options.keepEmpty (← textsOf found)

end Analysis
end ActionAtlas
