import ActionAtlas.Classification
import ActionAtlas.Discovery
import ActionAtlas.Entry.Json
import ActionAtlas.TypeScript.Program

/-!
# Analysis of a project

Actions are found first; then every identifier whose type belongs to an action becomes one of its
references. The result lists actions and references as they are written out.
-/

namespace ActionAtlas

open Syntax

/-! ## References -/

/-- The reference that a node makes, with the action it refers to. -/
def referenceAt? (typeOf : TypeOracle) (table : ActionTable) (tree : Tree) (pos : Nat) :
    Option (Nat × ReferenceEntry) :=
  match typeOf tree pos with
  | .ok type =>
      (table.get? (stripTypeof type)).map fun action =>
        (action,
          { filePath := tree.filePath, line := tree.line pos, usages := Classification.usages tree pos })
  | .error _ => none

def referencesIn (typeOf : TypeOracle) (table : ActionTable) (tree : Tree) :
    List (Nat × ReferenceEntry) :=
  (tree.descendants Tree.root .identifier).filterMap (referenceAt? typeOf table tree)

/-- Give every action the references to it from the files that are not left out. -/
def Discovery.aggregate (found : Discovery) (trees : List Tree) (typeOf : TypeOracle)
    (filters : PathFilters) : List Action :=
  let made := (trees.filter fun tree => !filters.isExcluded tree.filePath).flatMap
    (referencesIn typeOf found.table)
  found.actions.mapIdx fun index action =>
    { action with
      references := action.references ++ (made.filter (·.1 == index)).map (·.2) }

def analyzeTrees (trees : List Tree) (typeOf : TypeOracle) (filters : PathFilters) : List Action :=
  (Discovery.run trees typeOf filters).aggregate trees typeOf filters

/-! ## Written form -/

/-- A reference as it is written out, without the usage that says nothing. A reference with no other
usage is kept only on request. -/
def exportReference? (filters : PathFilters) (keepEmpty : Bool) (reference : ReferenceEntry) :
    Option ReferenceEntry :=
  let usages := reference.usages.filter (· ≠ .unknown)
  if usages.isEmpty ∧ !keepEmpty then none
  else some { reference with filePath := filters.formatPath reference.filePath, usages }

def exportAction (filters : PathFilters) (keepEmpty : Bool) (action : Action) : ActionEntry where
  name := action.name
  filePath := filters.formatPath action.filePath
  line := action.line
  references := action.references.filterMap (exportReference? filters keepEmpty)

def exportActions (filters : PathFilters) (keepEmpty : Bool) (actions : List Action) :
    List ActionEntry :=
  actions.map (exportAction filters keepEmpty)

/-! ## Results -/

def syntaxErrorMessage (path : String) (errors : Nat) : String :=
  "failed to parse '" ++ path ++ "': " ++ toString errors ++ " syntax error(s)"

/-- The trees of the files that can be read, and a warning for each that cannot. -/
def readSources (sources : List (String × String)) : List Tree × List String :=
  let read := sources.map fun (path, source) => (path, TypeScript.treeOf? path source)
  (read.filterMap (·.2), (read.filter (·.2.isNone)).map fun (path, _) => syntaxErrorMessage path 1)

structure Analysis where
  actions : List ActionEntry
  filesParsed : Nat
  filesSkipped : Nat
  warnings : List String

namespace Analysis

def ofSources (filters : PathFilters) (keepEmpty : Bool) (sources : List (String × String)) : Analysis :=
  let (trees, warnings) := readSources sources
  let actions := analyzeTrees trees (Declarations.ofTrees trees).typeOf filters
  { actions := exportActions filters keepEmpty actions
    filesParsed := trees.length
    filesSkipped := sources.length - trees.length
    warnings }

def referenceCount (analysis : Analysis) : Nat :=
  analysis.actions.foldl (fun count action => count + action.references.length) 0

def text (analysis : Analysis) : String := (ActionEntry.listToJson analysis.actions).pretty

def summary (analysis : Analysis) : String :=
  let counts :=
    ["Analysis Result", "===============",
      "Files parsed: " ++ toString analysis.filesParsed,
      "Files skipped: " ++ toString analysis.filesSkipped,
      "Actions: " ++ toString analysis.actions.length,
      "References: " ++ toString analysis.referenceCount,
      "Warnings: " ++ toString analysis.warnings.length]
  let warned :=
    if analysis.warnings.isEmpty then []
    else "" :: "Warnings:" :: analysis.warnings.map ("  - " ++ ·)
  String.join ((counts ++ warned).map (· ++ "\n"))

end Analysis
end ActionAtlas
