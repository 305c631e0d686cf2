import ActionAtlas.Analysis.Folder
import ActionAtlas.Graph.DisplayMode
import ActionAtlas.Graph.Json
import ActionAtlas.Options.Loading

/-!
# Failures of commands

What a command can fail at, how it is put into words, and the report that is shown for it: a message
and, where it is known what to do, a line of help.
-/

namespace ActionAtlas

/-- A failure of the file system, and whether it is that nothing was found. -/
structure FileFault where
  missing : Bool
  message : String
  deriving DecidableEq, Repr

def FileError.fault (error : FileError) : FileFault :=
  { missing := error = .notFound, message := error.message }

inductive ConfigFailure where
  | notFound (path : String)
  | unsupportedFormat (path : String)
  | invalidPattern (field pattern message : String)
  | invalidValue (field hint : String)
  | unreadable (message : String)
  | file (message : String)
  deriving DecidableEq, Repr

def ConfigFailure.message : ConfigFailure → String
  | .notFound path => "config file not found: " ++ path
  | .unsupportedFormat path => "unsupported configuration format: " ++ path
  | .invalidPattern field pattern message =>
      "invalid " ++ field ++ " pattern '" ++ pattern ++ "': " ++ message
  | .invalidValue field hint => "invalid config value for '" ++ field ++ "': " ++ hint
  | .unreadable message => "failed to load configuration: " ++ message
  | .file message => "I/O error: " ++ message

inductive AnalysisFailure where
  | config (failure : ConfigFailure)
  | folderNotFound (folder : String)
  | unreadable (path message : String)
  | syntaxErrors (path : String) (count : Nat)
  deriving DecidableEq, Repr

def AnalysisFailure.message : AnalysisFailure → String
  | .config failure => failure.message
  | .folderNotFound folder => "folder not found: " ++ folder
  | .unreadable path message => "failed to read '" ++ path ++ "': " ++ message
  | .syntaxErrors path count => syntaxErrorMessage path count

inductive GraphFailure where
  | missingField (name : String)
  | unknownMode (text : String)
  | unreadable (message : String)
  deriving DecidableEq, Repr

def GraphFailure.message : GraphFailure → String
  | .missingField name => "Missing " ++ name
  | .unknownMode text => DisplayMode.unknownMessage text
  | .unreadable message => "invalid graph data: " ++ message

inductive Failure where
  | config (failure : ConfigFailure)
  | analysis (failure : AnalysisFailure)
  | graph (failure : GraphFailure)
  | invalidArgument (message : String)
  | fileNotFound (path : String)
  | file (fault : FileFault)
  | custom (message : String)
  deriving DecidableEq, Repr

namespace Failure

def message : Failure → String
  | .config failure => "Configuration error: " ++ failure.message
  | .analysis failure => "Analysis error: " ++ failure.message
  | .graph failure => "Graph error: " ++ failure.message
  | .invalidArgument message => "Invalid argument: " ++ message
  | .fileNotFound path => "File not found: " ++ path
  | .file fault => "I/O error: " ++ fault.message
  | .custom message => message

def withPath (path : String) : Failure → Failure
  | .file fault => if fault.missing then .fileNotFound path else .file fault
  | failure => failure

def withHint (hint : String) (failure : Failure) : Failure :=
  .custom (failure.message ++ "\n\nHint: " ++ hint)

def withContext (context : String) (failure : Failure) : Failure :=
  .custom (context ++ ": " ++ failure.message)

end Failure

structure Report where
  message : String
  help : Option String := none
  deriving DecidableEq, Repr

namespace Report

def ofConfig : ConfigFailure → Report
  | .invalidPattern field pattern message =>
      { message := "Invalid " ++ field ++ " pattern '" ++ pattern ++ "': " ++ message
        help := some ("--" ++ field ++ " takes a regular expression") }
  | failure =>
      { message := (Failure.config failure).message
        help := some "Check ngv.config.json / ngv.config.toml and NGV_* environment variables" }

/-- The report for a failure. Settings that an analysis finds wrong are reported like those that are
found wrong before it. -/
def ofFailure : Failure → Report
  | .config failure | .analysis (.config failure) => ofConfig failure
  | .analysis (.folderNotFound folder) =>
      { message := "Folder not found: " ++ folder
        help := some "Pass the folder containing the TypeScript sources" }
  | .graph (.unreadable message) =>
      { message := "Invalid analysis file: " ++ message
        help := some "The input must be the JSON written by \x60ngv analyze\x60" }
  | failure => { message := failure.message }

end Report

/-! ## Failures of the parts -/

def InvalidPattern.failure (invalid : InvalidPattern) : ConfigFailure :=
  .invalidPattern invalid.field.name invalid.pattern "the pattern is not well formed"

def LoadError.failure : LoadError → ConfigFailure
  | .notFound path => .notFound path
  | .unsupportedFormat path => .unsupportedFormat path
  | .unreadable => .unreadable "the settings are not well formed"

def FolderError.failure : FolderError → AnalysisFailure
  | .pattern invalid => .config invalid.failure
  | .folderNotFound folder => .folderNotFound folder
  | .unreadable path error => .unreadable path error.message

def Json.ReadError.message : Json.ReadError → String
  | .fault .truncated => "the text ends too early"
  | .fault .malformed => "the text is not JSON"
  | .problem found => found.message

end ActionAtlas
