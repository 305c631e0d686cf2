import ActionAtlas.Syntax.Query
import ActionAtlas.Text.Affix
import ActionAtlas.Usage

/-!
# The roles of an occurrence

Each kind of usage is recognised by where a node stands in its tree. Every kind is tried, in the order
in which usages are listed.
-/

namespace ActionAtlas.Classification

open Syntax

/-- The name given where no identifier supplies one. -/
def unknownName : String := "Unknown"

def effectMark : List Char := "@Effect(".toList

def discriminantWord : List Char := "type".toList

/-- The text of the first identifier directly below a node. -/
def nameOf (tree : Tree) (pos : Nat) : String :=
  ((tree.firstChild? pos .identifier).map tree.text).getD unknownName

/-- The whole chain of property accesses that a node is part of; the node itself outside of one. -/
def outermostAccess (tree : Tree) (pos : Nat) : Nat :=
  (tree.highestWhile? (tree.kind · == .propertyAccess) pos).getD pos

def isInstantiation (tree : Tree) (pos : Nat) : Bool :=
  (tree.parent? (outermostAccess tree pos)).any (tree.kind · == .newExpression)

/-- The name of the member around a node that is decorated as an effect. The innermost ancestor with a
decorator below it decides, and its first decorator is the one looked at. -/
def effectName? (tree : Tree) (pos : Nat) : Option String := do
  let plain ← tree.highestWhile? (fun above => (tree.firstDescendant? above .decorator).isNone) pos
  let decorated ← tree.parent? plain
  let decorator ← tree.firstDescendant? decorated .decorator
  if (dropStart? effectMark (tree.text decorator).toList).isSome then
    pure (((tree.parent? decorator).map (nameOf tree)).getD unknownName)
  else none

def mentionsType (tree : Tree) (pos : Nat) : Bool :=
  occursIn discriminantWord (tree.text pos).toList

def dispatchesOnType (tree : Tree) (switch : Nat) : Bool :=
  (tree.childrenOfKind switch .identifier).any (mentionsType tree) ||
    (tree.childrenOfKind switch .propertyAccess).any fun access =>
      (tree.descendants access .identifier).any (mentionsType tree)

/-- Whether a node stands in a switch of a reducer, but not directly below it. -/
def isInReducer (tree : Tree) (pos : Nat) : Bool :=
  let inside := tree.highestWhile? (tree.kind · != .switchStatement) (outermostAccess tree pos)
  (inside.bind tree.parent?).any (dispatchesOnType tree)

/-- The name of the class around a node that stands in a constructor. -/
def constructorName? (tree : Tree) (pos : Nat) : Option String :=
  (tree.nearest? pos .constructor).map fun _ =>
    ((tree.nearest? pos .classDeclaration).map (nameOf tree)).getD unknownName

/-- The usage of one kind that a node has. The kind `unknown` is always found. -/
def usage? (tree : Tree) (pos : Nat) : UsageKind → Option Usage
  | .unknown => some .unknown
  | .instantiate => if isInstantiation tree pos then some .instantiate else none
  | .effect => (effectName? tree pos).map .effect
  | .method => (tree.nearest? pos .methodDeclaration).map fun found => .method (nameOf tree found)
  | .reducer => if isInReducer tree pos then some .reducer else none
  | .constructor => (constructorName? tree pos).map .constructor

def usages (tree : Tree) (pos : Nat) : List Usage :=
  UsageKind.all.filterMap (usage? tree pos)

end ActionAtlas.Classification
