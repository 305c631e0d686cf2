import ActionAtlas.Command.Arguments
import ActionAtlas.Graph.DisplayMode
import ActionAtlas.Options.Loading

/-!
# Command lines

The two commands and their arguments. Flags that belong to every command may stand before the name of
the command or behind it.
-/

namespace ActionAtlas

open Arguments

/-! ## Values -/

inductive DepthError where
  | notANumber (text : String)
  | zero
  deriving DecidableEq, Repr

def DepthError.message : DepthError → String
  | .notANumber text => "'" ++ text ++ "' is not a positive number"
  | .zero => "reducer depth must be at least 1"

/-- A number that fits a machine word; a plus sign may stand before it. -/
def machineWord? (text : String) : Option Nat :=
  let digits := match text.toList with
    | '+' :: rest => rest
    | text => text
  if digits.isEmpty || !digits.all (fun c => '0' ≤ c && c ≤ '9') then none
  else
    let number := digits.foldl (fun n c => n * 10 + (c.toNat - '0'.toNat)) 0
    if number < Json.Scanned.wordLimit then some number else none

/-- A depth for the names of reducers, which keeps at least one segment. -/
def reducerDepthOf (text : String) : Except DepthError Nat :=
  match machineWord? text with
  | none => .error (.notANumber text)
  | some 0 => .error .zero
  | some depth => .ok depth

/-! ## Commands -/

structure AnalyzeArguments where
  folder : String
  actions : Option String := none
  exclude : Option String := none
  remove : Option String := none
  keepEmpty : Bool := false
  save : Option String := none
  config : Option String := none
  deriving DecidableEq, Repr

/-- The settings that the arguments give. A flag that is left off gives none. -/
def AnalyzeArguments.overrides (arguments : AnalyzeArguments) : Overrides where
  folder := some arguments.folder
  remove := arguments.remove
  actions := arguments.actions
  exclude := arguments.exclude
  keepEmpty := if arguments.keepEmpty then some true else none
  save := arguments.save

structure GraphArguments where
  input : String
  reducerDepth : Option Nat := none
  mode : DisplayMode := DisplayMode.default
  only : Option String := none
  output : Option String := none
  config : Option String := none
  deriving DecidableEq, Repr

inductive Command where
  | analyze (arguments : AnalyzeArguments)
  | graph (arguments : GraphArguments)
  deriving DecidableEq, Repr

structure CommandLine where
  verbose : Bool
  quiet : Bool
  noColor : Bool
  command : Command
  deriving DecidableEq, Repr

/-! ## What is understood -/

namespace CommandLine

def anyText : Check := fun _ => none

/-- A path is not empty. -/
def pathText : Check := fun text => if text = "" then some .missingValue else none

def depthText : Check := fun text =>
  match reducerDepthOf text with
  | .ok _ => none
  | .error _ => some .refusedValue

def modeText : Check := fun text =>
  match DisplayMode.ofText? text with
  | some _ => none
  | none => some .refusedValue

def commonSwitches : List Argument :=
  [{ name := "verbose", short := some 'v', long := some "verbose", role := .flag },
    { name := "quiet", short := some 'q', long := some "quiet", role := .flag },
    { name := "no-color", long := some "no-color", role := .flag },
    { name := "help", short := some 'h', long := some "help", role := .help }]

def valued (name : String) (short : Option Char) (check : Check) : Argument :=
  { name, short, long := some name, role := .value check }

def configSwitch : Argument := valued "config" (some 'c') pathText

def topGrammar : Grammar where
  switches := commonSwitches
    ++ [{ name := "version", short := some 'V', long := some "version", role := .version }]
  commands := ["analyze", "graph", "help"]

def analyzeGrammar : Grammar where
  switches := commonSwitches ++
    [valued "actions" (some 'a') anyText,
      valued "exclude" (some 'x') anyText,
      valued "remove" (some 'r') anyText,
      { name := "empty-ref", short := some 'e', long := some "empty-ref", role := .flag },
      valued "save" (some 's') pathText,
      configSwitch]
  operand := some { name := "folder", role := .value pathText }

def graphGrammar : Grammar where
  switches := commonSwitches ++
    [valued "reducer-depth" (some 'd') depthText,
      valued "mode" (some 'm') modeText,
      valued "only" none anyText,
      valued "output" (some 'o') pathText,
      configSwitch]
  operand := some { name := "input", role := .value pathText }

abbrev Settled := List (String × String)

def Settled.has (settled : Settled) (name : String) : Bool := (settled.lookup name).isSome

/-- One cannot ask for more messages and for fewer at once. -/
def checkConflict (settled : Settled) : Outcome Unit :=
  if settled.has "verbose" ∧ settled.has "quiet" then .error .conflict else .ok ()

def readOperandCommand (grammar : Grammar) (operand : String) (words : List String) :
    Outcome (Settled × String) := do
  let (state, _) ← grammar.run {} words
  checkConflict state.settled
  match state.settled.lookup operand with
  | some value => return (state.settled, value)
  | none => .error .missingOperand

def readAnalyze (words : List String) : Outcome (Settled × Command) := do
  let (settled, folder) ← readOperandCommand analyzeGrammar "folder" words
  return (settled, .analyze {
    folder
    actions := settled.lookup "actions"
    exclude := settled.lookup "exclude"
    remove := settled.lookup "remove"
    keepEmpty := settled.has "empty-ref"
    save := settled.lookup "save"
    config := settled.lookup "config" })

def readGraph (words : List String) : Outcome (Settled × Command) := do
  let (settled, input) ← readOperandCommand graphGrammar "input" words
  return (settled, .graph {
    input
    reducerDepth := (settled.lookup "reducer-depth").bind fun text => (reducerDepthOf text).toOption
    mode := ((settled.lookup "mode").bind DisplayMode.ofText?).getD DisplayMode.default
    only := settled.lookup "only"
    output := settled.lookup "output"
    config := settled.lookup "config" })

/-- Help is asked for as a command; it takes the name of at most one command. -/
def readHelp : List String → UsageError
  | [] => .helpWanted
  | [name] => if topGrammar.commands.contains name then .helpWanted else .unknownCommand
  | _ => .unknownCommand

/-- Read a command line, without the name of the program. -/
def read (words : List String) : Outcome CommandLine := do
  let (state, rest) ← topGrammar.run {} words
  let (settled, command) ←
    match rest with
    | "analyze" :: words => readAnalyze words
    | "graph" :: words => readGraph words
    | _ :: words => .error (readHelp words)
    | [] => .error (if state.settled.isEmpty then .nothingGiven else .missingCommand)
  checkConflict state.settled
  let has (name : String) : Bool := Settled.has state.settled name || Settled.has settled name
  return { verbose := has "verbose", quiet := has "quiet", noColor := has "no-color", command }

end CommandLine
end ActionAtlas
