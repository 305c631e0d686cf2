import ActionAtlas.Command.Failure
import ActionAtlas.Command.Line
import ActionAtlas.Command.Status
import ActionAtlas.Graph.Build
import ActionAtlas.Graph.Presentation
import ActionAtlas.Graph.Statistics

/-!
# Running commands

A command reads files and variables, writes files, and leaves what it prints. When it fails, what it
printed and wrote before stays.
-/

namespace ActionAtlas

structure Session where
  files : Files
  environment : List (String × String)
  withColours : Bool
  output : String := ""
  messages : String := ""
  written : List (String × String) := []

abbrev Running := ExceptT Failure (StateM Session)

namespace Running

def say (weight : Weight) (message : String) : Running Unit :=
  modify fun session =>
    { session with messages := session.messages ++ statusLine session.withColours weight message }

def print (text : String) : Running Unit :=
  modify fun session => { session with output := session.output ++ text ++ "\n" }

/-- Load the settings, from the given file or from one in the folder that work is done in. -/
def loadOptions (config : Option String) (overrides : Overrides) : Running Options := do
  let session ← get
  let loaded := match config with
    | some path => Options.load session.files session.environment (some path) overrides
    | none => Options.discover session.files session.environment "." overrides
  match loaded with
  | .ok options => return options
  | .error e => throw (.config e.failure)

def writeOutput (path text : String) : Running Unit := do
  match (← get).files.save path text with
  | .ok files =>
      modify fun session => { session with files, written := session.written ++ [(path, text)] }
  | .error e => throw (Failure.withPath path (.file e.fault))

def deliver (path : Option String) (text said : String) : Running Unit := do
  match path with
  | some path => do
      writeOutput path text
      say .success ("Wrote " ++ said ++ " to " ++ path)
  | none => print text

def analyze (arguments : AnalyzeArguments) : Running Unit := do
  let options ← loadOptions arguments.config arguments.overrides
  match Analysis.ofFolder (← get).files options with
  | .error e => throw (.analysis e.failure)
  | .ok analysis =>
      analysis.warnings.forM (say .warning)
      deliver options.save analysis.text "analysis"
      say .success <|
        toString analysis.actions.length ++ " actions, " ++ toString analysis.referenceCount
          ++ " references (" ++ toString analysis.filesParsed ++ " files parsed, "
          ++ toString analysis.filesSkipped ++ " skipped)"

/-- The depth for the names of reducers: the one that is given, or the one among the settings. -/
def reducerDepth (arguments : GraphArguments) : Running Nat := do
  match arguments.reducerDepth with
  | some depth => return depth
  | none => return (← loadOptions arguments.config {}).reducerNameDepth

def graph (arguments : GraphArguments) : Running Unit := do
  let text ←
    match (← get).files.readText arguments.input with
    | .ok text => pure text
    | .error e =>
        throw <| Failure.withHint "Create it with \x60ngv analyze <FOLDER> --save <FILE>\x60"
          (Failure.withPath arguments.input (.file e.fault))
  let depth ← reducerDepth arguments
  match ActionEntry.listOfText text with
  | .error e => throw (.graph (.unreadable e.message))
  | .ok actions =>
      match (Graph.ofEntries depth actions).present? arguments.mode arguments.only with
      | none =>
          throw (.invalidArgument
            ("no actions declared under '" ++ arguments.only.getD "" ++ "'"))
      | some shown =>
          let mode := arguments.mode.name
          deliver arguments.output shown.visibleGraph.toJson.pretty (mode ++ " graph")
          say .info (mode ++ ": " ++ (Statistics.ofStore shown).text)

def command : Command → Running Unit
  | .analyze arguments => analyze arguments
  | .graph arguments => graph arguments

end Running

def Command.run (command : Command) (session : Session) : Session × Option Failure :=
  match (Running.command command).run.run session with
  | (.ok (), session) => (session, none)
  | (.error failure, session) => (session, some failure)

end ActionAtlas
