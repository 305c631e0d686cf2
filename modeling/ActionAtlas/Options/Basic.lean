import ActionAtlas.Json.Reading
import ActionAtlas.Options.PathFilters
import ActionAtlas.Text.Segments

/-!
# Options

The settings of an analysis, how they are read from JSON and how they are written. Every setting has a
value when it is not given, and two of them have a second spelling.
-/

namespace ActionAtlas

open Json

structure Options where
  folder : String := "."
  remove : Option String := none
  actions : Option String := none
  exclude : Option String := none
  keepEmpty : Bool := false
  reducerNameDepth : Nat := 1
  save : Option String := none
  deriving DecidableEq, Repr

namespace Options

/-- Whether a path names the folder it is read in and nothing below it. -/
def staysHere (path : String) : Bool :=
  match pathSegments path with
  | [] => false
  | first :: rest => first == "." && rest.all fun segment => segment == "" || segment == "."

/-- Whether the settings are those that hold when none is given, the folder taken as a place. -/
def isDefault (options : Options) : Bool :=
  staysHere options.folder && decide ({ options with folder := "." } = ({} : Options))

def filters (options : Options) : Except InvalidPattern PathFilters :=
  PathFilters.ofTexts options.remove options.actions options.exclude

/-! ## Written form -/

def givenField (name : String) : Option Value → List (String × Value)
  | some value => [(name, value)]
  | none => []

def toJson (options : Options) : Value :=
  .obj <|
    [("folder", .str options.folder)]
      ++ givenField "remove" (options.remove.map .str)
      ++ givenField "actions" (options.actions.map .str)
      ++ givenField "exclude" (options.exclude.map .str)
      ++ [("empty_ref", .bool options.keepEmpty),
        ("reducer_name_depth", Value.nat options.reducerNameDepth)]
      ++ givenField "save" (options.save.map .str)

/-! ## Reading -/

structure Draft where
  folder : Option String := none
  remove : Option (Option String) := none
  actions : Option (Option String) := none
  exclude : Option (Option String) := none
  keepEmpty : Option Bool := none
  reducerNameDepth : Option Nat := none
  save : Option (Option String) := none

/-- Settings that have not been met keep their usual value. -/
def Draft.complete (draft : Draft) : Options where
  folder := draft.folder.getD "."
  remove := draft.remove.getD none
  actions := draft.actions.getD none
  exclude := draft.exclude.getD none
  keepEmpty := draft.keepEmpty.getD false
  reducerNameDepth := draft.reducerNameDepth.getD 1
  save := draft.save.getD none

def readPath : Scanned → Read String := Scanned.readTextAs "path string"

def readPattern : Scanned → Read (Option String) := Scanned.readOption Scanned.readText

def readDepth : Scanned → Read Nat := Scanned.readBelow Scanned.wordLimit "usize"

def Draft.take (draft : Draft) (name : String) (value : Scanned) : Read Draft :=
  match name with
  | "folder" => do
      return { draft with folder := ← fillOnce "folder" draft.folder (readPath value) }
  | "remove" => do
      return { draft with remove := ← fillOnce "remove" draft.remove (readPattern value) }
  | "actions" => do
      return { draft with actions := ← fillOnce "actions" draft.actions (readPattern value) }
  | "exclude" => do
      return { draft with exclude := ← fillOnce "exclude" draft.exclude (readPattern value) }
  | "empty_ref" | "emptyRef" => do
      return { draft with keepEmpty := ← fillOnce "empty_ref" draft.keepEmpty value.readBool }
  | "reducer_name_depth" | "reducerNameDepth" => do
      return { draft with
        reducerNameDepth := ← fillOnce "reducer_name_depth" draft.reducerNameDepth (readDepth value) }
  | "save" => do
      return { draft with save := ← fillOnce "save" draft.save (value.readOption readPath) }
  | _ => do
      value.skip
      return draft

def record : Record Draft Options where
  wanted := "struct AnalyzerOptions"
  start := {}
  field := Draft.take
  complete draft := .ok draft.complete
  ofItems items := do
    let (folder, items) ← items.next? readPath
    let (remove, items) ← items.next? readPattern
    let (actions, items) ← items.next? readPattern
    let (exclude, items) ← items.next? readPattern
    let (keepEmpty, items) ← items.next? Scanned.readBool
    let (reducerNameDepth, items) ← items.next? readDepth
    let (save, items) ← items.next? (Scanned.readOption readPath)
    let draft : Draft := { folder, remove, actions, exclude, keepEmpty, reducerNameDepth, save }
    return (draft.complete, items)

def ofJson (value : Value) : Read Options := record.read .value (Scanned.ofValue value)

end Options
end ActionAtlas
