import ActionAtlas.Command.Run

/-!
# The program

Reads what a command needs from the file system and the environment, runs the command on it, and
carries out what the command printed and wrote.
-/

namespace ActionAtlas.Program

/-- Put a folder of the file system with everything below it that can hold source files into a tree. -/
partial def readFolder (tree : FileTree) (names : List String) : IO FileTree := do
  let folder : IO.FS.DirEntry := { root := Files.absolute names, fileName := "." }
  let mut tree := if (tree.at? names).isSome then tree else tree.put names (.folder [])
  for entry in ← folder.path.readDir do
    let below := names ++ [entry.fileName]
    if ← entry.path.isDir then
      unless isSkippedName entry.fileName do
        tree ← readFolder tree below
    else if isSourceName entry.fileName then
      tree := tree.put below (.file (← IO.FS.readBinFile entry.path))
  return tree

def namesFrom (here : List String) (path : String) : List String :=
  let start := if Path.isAbsolute path then [] else here
  (Path.names path).foldl
    (fun names name =>
      if name = "." then names else if name = ".." then names.dropLast else names ++ [name])
    start

/-- Put the file or folder at some names into a tree, without what is below a folder. -/
def readEntry (tree : FileTree) (names : List String) : IO FileTree := do
  if (tree.at? names).isSome then return tree
  let entry : IO.FS.DirEntry := { root := Files.absolute names.dropLast, fileName := names.getLast?.getD "." }
  if ← entry.path.isDir then return tree.put names (.folder [])
  else if ← entry.path.pathExists then
    return tree.put names (.file (← IO.FS.readBinFile entry.path))
  else return tree

def readPath (here : List String) (tree : FileTree) (path : String) : IO FileTree := do
  let names := namesFrom here path
  let mut tree := tree
  for count in List.range names.length do
    tree ← readEntry tree (names.take (count + 1))
  return tree

/-- The variables that a command looks at, asked for one by one under these names. A variable that gives
the same setting by a name in small letters or with dots is not seen. -/
def readVariables : IO (List (String × String)) := do
  let names :=
    ["NO_COLOR", "FORCE_COLOR", "NGV_FOLDER", "NGV_REMOVE", "NGV_ACTIONS", "NGV_EXCLUDE",
      "NGV_EMPTY_REF", "NGV_REDUCER_NAME_DEPTH", "NGV_SAVE"]
  names.filterMapM fun name => return (← IO.getEnv name).map fun text => (name, text)

/-- The files that a command reads, and the folders around those that it writes. -/
def readFiles (command : Command) (environment : List (String × String)) : IO Files := do
  let here := Path.names (← IO.currentDir).toString
  let (config, overrides) := match command with
    | .analyze arguments => (arguments.config, arguments.overrides)
    | .graph arguments => (arguments.config, {})
  let mut tree : FileTree := .folder []
  for path in "." :: (config.map ([·])).getD ConfigFormat.fileNames do
    tree ← readPath here tree path
  match command with
  | .graph arguments =>
      for path in arguments.input :: arguments.output.toList do
        tree ← readPath here tree path
  | .analyze _ =>
      let files : Files := { root := tree, here }
      let loaded := match config with
        | some path => Options.load files environment (some path) overrides
        | none => Options.discover files environment "." overrides
      if let .ok options := loaded then
        for path in options.folder :: options.save.toList do
          tree ← readPath here tree path
        if ({ files with root := tree } : Files).isFolder options.folder then
          tree ← readFolder tree (namesFrom here options.folder)
  return { root := tree, here }

def writeFile (path text : String) : IO Unit := do
  if let some parent := Path.parent? path then
    if parent ≠ "" then IO.FS.createDirAll parent
  IO.FS.writeFile path text

def usage : String :=
  "Usage: ngv [-v | -q] [--no-color] <COMMAND>\n\n"
    ++ "  analyze <FOLDER> [-a REGEX] [-x REGEX] [-r REGEX] [-e] [-s FILE] [-c FILE]\n"
    ++ "  graph <ANALYSIS_JSON> [-d N] [-m MODE] [--only PATH] [-o FILE] [-c FILE]\n"

def run (line : CommandLine) : IO UInt32 := do
  let environment ← readVariables
  let stderr ← IO.getStderr
  let withColours := !line.noColor && wantsColours environment (← stderr.isTty)
  let session : Session := { files := ← readFiles line.command environment, environment, withColours }
  let (after, failure) := line.command.run session
  for (path, text) in after.written do writeFile path text
  IO.print after.output
  stderr.putStr after.messages
  match failure with
  | none => return 0
  | some failure =>
      let report := Report.ofFailure failure
      stderr.putStrLn ("Error: " ++ report.message)
      if let some help := report.help then stderr.putStrLn ("  help: " ++ help)
      return 1

end ActionAtlas.Program

def main (words : List String) : IO UInt32 := do
  match ActionAtlas.CommandLine.read words with
  | .ok line => ActionAtlas.Program.run line
  | .error .helpWanted =>
      IO.print ActionAtlas.Program.usage
      return 0
  | .error .versionWanted =>
      IO.println "ngv"
      return 0
  | .error _ =>
      (← IO.getStderr).putStr ActionAtlas.Program.usage
      return 2
