import ActionAtlas.Declarations
import ActionAtlas.Entry
import ActionAtlas.Options.PathFilters

/-!
# Finding actions

An action is a class at the top of a file whose first field is called `type` and has a narrower type
than any string. Actions are looked up by the type of the class and by the type of that field.
-/

namespace ActionAtlas

open Syntax

structure Action where
  name : String
  filePath : String
  /-- The line of the class. -/
  line : UInt32
  classType : String
  /-- The type of the field that tells actions apart. -/
  fieldType : String
  references : List ReferenceEntry := []
  deriving DecidableEq, Repr

/-- The name an action is shown by: the type of its field without the first two quotes and with forward
slashes. -/
def Action.displayName (fieldType : String) : String :=
  String.ofList (replaceChar '\\' '/' (dropFirst '"' 2 fieldType.toList))

/-! ## The table of actions -/

/-- Which action a type belongs to. Every type is listed once. -/
structure ActionTable where
  entries : List (String × Nat) := []
  deriving Repr

namespace ActionTable

/-- Give a type to an action; a type that had another one changes hands. -/
def insert (table : ActionTable) (type : String) (action : Nat) : ActionTable :=
  if table.entries.any (·.1 == type) then
    ⟨table.entries.map fun entry => if entry.1 == type then (type, action) else entry⟩
  else ⟨table.entries ++ [(type, action)]⟩

def get? (table : ActionTable) (type : String) : Option Nat :=
  table.entries.lookup type

def contains (table : ActionTable) (type : String) : Bool :=
  (table.get? type).isSome

def size (table : ActionTable) : Nat := table.entries.length

def isEmpty (table : ActionTable) : Bool := table.entries.isEmpty

end ActionTable

/-! ## Discovery -/

def discriminantField : String := "type"

def anyString : String := "string"

/-- The action that a class declares, if it declares one. A class without a type is none. -/
def inspectClass (typeOf : TypeOracle) (tree : Tree) (pos : Nat) : Except TypeError (Option Action) := do
  let classType ← typeOf tree pos
  match tree.firstDescendant? pos .propertyDeclaration with
  | none => pure none
  | some field =>
      let fieldType ← typeOf tree field
      match tree.firstChild? field .identifier with
      | none => pure none
      | some name =>
          if tree.text name ≠ discriminantField ∨ fieldType = anyString then pure none
          else
            pure (some
              { name := Action.displayName fieldType
                filePath := tree.filePath
                line := tree.line pos
                classType
                fieldType })

def actionsOf (typeOf : TypeOracle) (tree : Tree) : List Action :=
  (tree.childrenOfKind Tree.root .classDeclaration).filterMap fun pos =>
    match inspectClass typeOf tree pos with
    | .ok found => found
    | .error _ => none

structure Discovery where
  actions : List Action := []
  table : ActionTable := {}

namespace Discovery

/-- Add an action at the end. Its types are its own from now on. -/
def register (found : Discovery) (action : Action) : Discovery :=
  let index := found.actions.length
  { actions := found.actions ++ [action]
    table := (found.table.insert action.classType index).insert action.fieldType index }

def run (trees : List Tree) (typeOf : TypeOracle) (filters : PathFilters) : Discovery :=
  ((trees.filter fun tree => filters.isActionsFile tree.filePath).flatMap (actionsOf typeOf)).foldl
    register {}

end Discovery
end ActionAtlas
