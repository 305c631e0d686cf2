import ActionAtlas.Syntax.Query
import ActionAtlas.Text.Affix
import ActionAtlas.Text.Blank
import ActionAtlas.Text.Segments

/-!
# Types read off declarations

The classes and enums that a set of files declares are enough to name the type of an identifier, of a
class and of a property.
-/

namespace ActionAtlas

open Syntax

inductive TypeError where
  | unresolved (kind : Kind) (text : String)
  | unsupported (kind : Kind)
  deriving DecidableEq, Repr

def TypeError.message : TypeError → String
  | .unresolved kind text => "cannot resolve the type of " ++ kind.label ++ " \x60" ++ text ++ "\x60"
  | .unsupported kind => "no type information for " ++ kind.label ++ " nodes"

abbrev TypeOracle := Tree → Nat → Except TypeError String

/-- The marker of a type that stands for a declaration rather than for its instances. -/
def typeofMark : List Char := "typeof ".toList

def stripTypeof (type : String) : String :=
  ((dropStart? typeofMark type.toList).map String.ofList).getD type

def markTypeof (name : String) : String := String.ofList (typeofMark ++ name.toList)

structure Declarations where
  classes : List String
  enums : List String

namespace Declarations

def namesIn (tree : Tree) (kind : Kind) : List String :=
  (tree.descendants Tree.root kind).filterMap fun found =>
    (tree.firstChild? found .identifier).map tree.text

def ofTrees (trees : List Tree) : Declarations where
  classes := trees.flatMap (namesIn · .classDeclaration)
  enums := trees.flatMap (namesIn · .enumDeclaration)

def isClass (declared : Declarations) (name : String) : Bool := declared.classes.contains name

def isEnum (declared : Declarations) (name : String) : Bool := declared.enums.contains name

/-- The last segment of a dotted name, so that an enum is found through a namespace. -/
def lastSegment (text : String) : String :=
  String.ofList (trimBlank ((Segments.split '.' text.toList).getLast?.getD []))

/-- The type of the member name in an access on a declared enum. -/
def enumMember? (declared : Declarations) (tree : Tree) (pos : Nat) : Option String := do
  let access ← tree.parent? pos
  match tree.kind access, tree.children access with
  | .propertyAccess, [object, member] =>
      let name := lastSegment (tree.text object)
      if member = pos ∧ declared.isEnum name then some (name ++ "." ++ tree.text pos) else none
  | _, _ => none

/-- Whether a node names a type where one is written, rather than standing for a value. -/
def inTypePosition (tree : Tree) (pos : Nat) : Bool :=
  (tree.parent? pos).any (tree.kind · == .typeReference)

def identifierType (declared : Declarations) (tree : Tree) (pos : Nat) : Except TypeError String :=
  let text := tree.text pos
  match declared.enumMember? tree pos with
  | some member => .ok member
  | none =>
      if declared.isClass text then
        .ok (if inTypePosition tree pos then text else markTypeof text)
      else if declared.isEnum text then .ok (markTypeof text)
      else .error (.unresolved .identifier text)

/-- The type of a class is its name, that of a property is what its declaration says. -/
def typeOf (declared : Declarations) : TypeOracle := fun tree pos =>
  match tree.kind pos with
  | .classDeclaration =>
      match tree.firstChild? pos .identifier with
      | some name => .ok (tree.text name)
      | none => .error (.unresolved .classDeclaration "")
  | .propertyDeclaration =>
      match tree.hint? pos with
      | some hint => .ok hint
      | none => .error (.unresolved .propertyDeclaration (tree.text pos))
  | .identifier => declared.identifierType tree pos
  | kind => .error (.unsupported kind)

end Declarations
end ActionAtlas
