import ActionAtlas.Syntax.Tree

/-!
# Looking around in a tree

Searches go down in pre-order and up along the parents. Both are bounded by the number of nodes, which
no path through a tree exceeds.
-/

namespace ActionAtlas.Syntax.Tree

def firstChild? (tree : Tree) (pos : Nat) (kind : Kind) : Option Nat :=
  (tree.children pos).find? (tree.kind · == kind)

def childrenOfKind (tree : Tree) (pos : Nat) (kind : Kind) : List Nat :=
  (tree.children pos).filter (tree.kind · == kind)

/-- The nodes at most `depth` levels below a node, in pre-order. -/
def below (tree : Tree) : Nat → Nat → List Nat
  | 0, _ => []
  | depth + 1, pos => (tree.children pos).flatMap fun child => child :: tree.below depth child

def descendants (tree : Tree) (pos : Nat) (kind : Kind) : List Nat :=
  (tree.below tree.nodes.size pos).filter (tree.kind · == kind)

def firstBelow? (tree : Tree) (kind : Kind) : Nat → Nat → Option Nat
  | 0, _ => none
  | depth + 1, pos =>
      (tree.children pos).findSome? fun child =>
        if tree.kind child = kind then some child else tree.firstBelow? kind depth child

def firstDescendant? (tree : Tree) (pos : Nat) (kind : Kind) : Option Nat :=
  tree.firstBelow? kind tree.nodes.size pos

/-- At most `height` nodes above a node, innermost first. -/
def above (tree : Tree) : Nat → Nat → List Nat
  | 0, _ => []
  | height + 1, pos =>
      match tree.parent? pos with
      | some parent => parent :: tree.above height parent
      | none => []

def ancestors (tree : Tree) (pos : Nat) : List Nat :=
  tree.above tree.nodes.size pos

def nearest? (tree : Tree) (pos : Nat) (kind : Kind) : Option Nat :=
  (tree.ancestors pos).find? (tree.kind · == kind)

/-- The last node reached by going up while `holds`; none when the parent already fails. -/
def highestWhile? (tree : Tree) (holds : Nat → Bool) (pos : Nat) : Option Nat :=
  ((tree.ancestors pos).takeWhile holds).getLast?

end ActionAtlas.Syntax.Tree
