import ActionAtlas.Files.Basic
import ActionAtlas.Options.Basic
import ActionAtlas.Options.Environment
import ActionAtlas.Toml.Document

/-!
# Loading of options

Settings come in layers: a file, the environment and what is given on the spot. A layer replaces what
the layers below it say about a setting, by the spelling of the setting. Only then are the settings
read.
-/

namespace ActionAtlas

open Json

/-- Settings by their spelling, before they are read. -/
abbrev Layer := List (String × Value)

namespace Layer

def under (lower upper : Layer) : Layer :=
  upper.foldl (fun all (name, value) => insertField name value all) lower

end Layer

/-! ## Files -/

inductive ConfigFormat where
  | json
  | toml
  deriving DecidableEq, Repr

namespace ConfigFormat

def ofPath? (path : String) : Option ConfigFormat :=
  match Path.extension? ((pathSegments path).getLast?.getD "") with
  | some "json" => some .json
  | some "toml" => some .toml
  | _ => none

def layer? (format : ConfigFormat) (text : String) : Option Layer :=
  match format with
  | .toml => Toml.fieldsOfText? text
  | .json =>
      match Value.ofText text with
      | .ok (.obj fields) => some fields
      | _ => none

/-- Names of files that are looked for, the first one found being used. -/
def fileNames : List String := ["ngv.config.json", "ngv.config.toml"]

def find? (files : Files) (folder : String) : Option String :=
  (fileNames.map fun name => folder ++ "/" ++ name).find? files.isFile

end ConfigFormat

/-! ## Settings given on the spot -/

/-- Settings that are given on the spot; those that are missing leave the layers below as they are. -/
structure Overrides where
  folder : Option String := none
  remove : Option String := none
  actions : Option String := none
  exclude : Option String := none
  keepEmpty : Option Bool := none
  reducerNameDepth : Option Nat := none
  save : Option String := none
  deriving DecidableEq, Repr

def Overrides.layer (overrides : Overrides) : Layer :=
  Options.givenField "folder" (overrides.folder.map .str)
    ++ Options.givenField "remove" (overrides.remove.map .str)
    ++ Options.givenField "actions" (overrides.actions.map .str)
    ++ Options.givenField "exclude" (overrides.exclude.map .str)
    ++ Options.givenField "empty_ref" (overrides.keepEmpty.map .bool)
    ++ Options.givenField "reducer_name_depth" (overrides.reducerNameDepth.map Value.nat)
    ++ Options.givenField "save" (overrides.save.map .str)

/-! ## Loading -/

inductive LoadError where
  | notFound (path : String)
  | unsupportedFormat (path : String)
  | unreadable
  deriving DecidableEq, Repr

namespace Options

def ofLayers? (file environment overrides : Layer) : Option Options :=
  (ofJson (.obj ((file.under environment).under overrides))).toOption

def fileLayer (files : Files) (path : String) : Except LoadError Layer :=
  if !files.isFile path then .error (.notFound path)
  else
    match ConfigFormat.ofPath? path with
    | none => .error (.unsupportedFormat path)
    | some format =>
        match (files.readText path).toOption.bind format.layer? with
        | some layer => .ok layer
        | none => .error .unreadable

def load (files : Files) (environment : List (String × String)) (config : Option String)
    (overrides : Overrides) : Except LoadError Options := do
  let file ← match config with
    | some path => fileLayer files path
    | none => pure []
  match ofLayers? file (Environment.settings environment) overrides.layer with
  | some options => return options
  | none => .error .unreadable

def discover (files : Files) (environment : List (String × String)) (folder : String)
    (overrides : Overrides) : Except LoadError Options :=
  load files environment (ConfigFormat.find? files folder) overrides

end Options
end ActionAtlas
