import ActionAtlas.Pattern.Search
import ActionAtlas.Text.Affix

/-!
# Path filters

Three patterns say how paths are shown, which files are searched for actions and which files are left
out of the search for references.
-/

namespace ActionAtlas

structure PathFilters where
  remove : Option Pattern := none
  actions : Option Pattern := none
  exclude : Option Pattern := none

inductive PatternField where
  | remove
  | actions
  | exclude
  deriving DecidableEq, Repr

def PatternField.name : PatternField → String
  | .remove => "remove"
  | .actions => "actions"
  | .exclude => "exclude"

structure InvalidPattern where
  field : PatternField
  pattern : String
  deriving DecidableEq, Repr

namespace PathFilters

/-- The pattern of an option; an empty text is as good as none. -/
def compile (field : PatternField) (text : Option String) : Except InvalidPattern (Option Pattern) :=
  match text with
  | none | some "" => .ok none
  | some text =>
      match Pattern.ofText? text with
      | some pattern => .ok (some pattern)
      | none => .error ⟨field, text⟩

/-- The filters of three options. The first one that is no pattern is reported. -/
def ofTexts (remove actions exclude : Option String) : Except InvalidPattern PathFilters := do
  let remove ← compile .remove remove
  let actions ← compile .actions actions
  let exclude ← compile .exclude exclude
  pure { remove, actions, exclude }

/-- The path as it is shown: without the first match of the removed pattern and with forward slashes. -/
def formatPath (filters : PathFilters) (path : String) : String :=
  let kept := match filters.remove with
    | some pattern => pattern.removeFirst path
    | none => path
  String.ofList (replaceChar '\\' '/' kept.toList)

def isActionsFile (filters : PathFilters) (path : String) : Bool :=
  filters.actions.all (·.isMatch path)

def isExcluded (filters : PathFilters) (path : String) : Bool :=
  filters.exclude.any (·.isMatch path)

end PathFilters
end ActionAtlas
