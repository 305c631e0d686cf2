import ActionAtlas.Files.Path

/-!
# Files

Files and folders as a value: a tree, and the place in it that relative paths start from. Looking up
and writing fail for the reasons that a file system gives.
-/

namespace ActionAtlas

/-- A file with its bytes, or a folder with what it holds under each name. Names are texts, so one that is
not UTF-8 cannot be written down, and neither can an entry that is neither a file nor a folder. -/
inductive FileTree where
  | file (content : ByteArray)
  | folder (entries : List (String × FileTree))
  deriving Inhabited

inductive FileError where
  | notFound
  | occupied
  | notAFolder
  | isAFolder
  | notText
  deriving DecidableEq, Repr

def FileError.message : FileError → String
  | .notFound => "No such file or directory (os error 2)"
  | .occupied => "File exists (os error 17)"
  | .notAFolder => "Not a directory (os error 20)"
  | .isAFolder => "Is a directory (os error 21)"
  | .notText => "stream did not contain valid UTF-8"

namespace FileTree

/-- What stands at the end of a way of names. -/
def at? : List String → FileTree → Option FileTree
  | [], tree => some tree
  | _ :: _, .file _ => none
  | name :: rest, .folder entries => (entries.lookup name).bind (at? rest)

/-- Put something under a name, in place of what is there. -/
def putEntry (name : String) (tree : FileTree) :
    List (String × FileTree) → List (String × FileTree)
  | [] => [(name, tree)]
  | (other, old) :: rest =>
      if other = name then (name, tree) :: rest else (other, old) :: putEntry name tree rest

/-- Put something at the end of a way of names. Folders on the way are made as needed. -/
def put : FileTree → List String → FileTree → FileTree
  | _, [], new => new
  | .folder entries, name :: rest, new =>
      .folder (putEntry name (((entries.lookup name).getD (.folder [])).put rest new) entries)
  | .file _, name :: rest, new => .folder [(name, (folder []).put rest new)]

end FileTree

/-- A tree of files and the names that lead to the folder in which work is done. -/
structure Files where
  root : FileTree
  here : List String

namespace Files

def step (files : Files) (place : List String) (segment : String) :
    Except FileError (List String) :=
  match files.root.at? place with
  | none => .error .notFound
  | some (.file _) => .error .notAFolder
  | some (.folder entries) =>
      match segment with
      | "" | "." => .ok place
      | ".." => .ok place.dropLast
      | name => if (entries.lookup name).isSome then .ok (place ++ [name]) else .error .notFound

def origin (files : Files) (path : String) : List String :=
  if Path.isAbsolute path then [] else files.here

def locate (files : Files) (path : String) : Except FileError (List String) :=
  if path = "" then .error .notFound
  else (pathSegments path).foldlM files.step (files.origin path)

def absolute (place : List String) : String := Path.ofNames true place

def find (files : Files) (path : String) : Except FileError FileTree := do
  match files.root.at? (← files.locate path) with
  | some tree => .ok tree
  | none => .error .notFound

def isFile (files : Files) (path : String) : Bool :=
  match files.find path with
  | .ok (.file _) => true
  | _ => false

def isFolder (files : Files) (path : String) : Bool :=
  match files.find path with
  | .ok (.folder _) => true
  | _ => false

def textOf (content : ByteArray) : Except FileError String :=
  match String.fromUTF8? content with
  | some text => .ok text
  | none => .error .notText

def readText (files : Files) (path : String) : Except FileError String := do
  match ← files.find path with
  | .file content => textOf content
  | .folder _ => .error .isAFolder

/-- The place of the folder that a path leads into, and the last name of the path. -/
def target (files : Files) (path : String) : Except FileError (List String × String) := do
  if path = "" then .error .notFound
  let segments := pathSegments path
  let place ← segments.dropLast.foldlM files.step (files.origin path)
  match files.root.at? place with
  | some (.folder _) => return (place, segments.getLast?.getD "")
  | some (.file _) => .error .notAFolder
  | none => .error .notFound

/-- Write a file. The folder has to be there. A path that ends in a slash or dots names no file. -/
def write (files : Files) (path : String) (content : ByteArray) : Except FileError Files := do
  if path ≠ "" ∧ path.toList.getLast? = some '/' then
    match files.find (Path.ofNames (Path.isAbsolute path) (Path.names path)) with
    | .ok (.file _) => .error .notAFolder
    | .ok (.folder _) => .error .isAFolder
    | .error .notFound =>
        let _ ← files.target (Path.ofNames (Path.isAbsolute path) (Path.names path))
        .error .isAFolder
    | .error e => .error e
  else
    let (place, name) ← files.target path
    if name = "." ∨ name = ".." then .error .isAFolder
    match files.root.at? (place ++ [name]) with
    | some (.folder _) => .error .isAFolder
    | _ => return { files with root := files.root.put (place ++ [name]) (.file content) }

/-- Make one folder. The folder around it has to be there, and nothing under its name. -/
def makeFolder (files : Files) (path : String) : Except FileError Files := do
  let (place, name) ← files.target path
  if name = "" ∨ name = "." ∨ name = ".." then .error .occupied
  match files.root.at? (place ++ [name]) with
  | some _ => .error .occupied
  | none => return { files with root := files.root.put (place ++ [name]) (.folder []) }

def ensureFolder (files : Files) (path : String) : Except FileError Files :=
  match files.makeFolder path with
  | .ok files => .ok files
  | .error e => if files.isFolder path then .ok files else .error e

/-- Make a folder and those around it, given from the inside out. Only when the folder around is
missing is it made first. -/
def makeFolders (files : Files) : List String → Except FileError Files
  | [] => .ok files
  | path :: around =>
      match files.ensureFolder path with
      | .error .notFound => do (← files.makeFolders around).ensureFolder path
      | outcome => outcome

def save (files : Files) (path text : String) : Except FileError Files := do
  let files ←
    match Path.parent? path with
    | none | some "" => pure files
    | some parent => files.makeFolders (Path.enclosing parent)
  files.write path text.toUTF8

end Files
end ActionAtlas
