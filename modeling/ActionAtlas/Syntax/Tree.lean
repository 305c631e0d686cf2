import ActionAtlas.Syntax.Kind

/-!
# Syntax trees

A tree is a table of nodes that name each other by position. Node 0 is the root. Positions stand for ids
of 32 bits: up to 2^32 nodes the two are the same, and only beyond would ids begin again from zero.
-/

namespace ActionAtlas.Syntax

/-- A stretch of a text, in bytes. -/
structure Span where
  start : Nat
  stop : Nat
  deriving DecidableEq, Repr

/-- The text at a span; none when the span leaves the text, runs backwards or cuts a character. -/
def Span.textIn? (span : Span) (source : String) : Option String :=
  if span.start ≤ span.stop ∧ span.stop ≤ source.utf8ByteSize then
    String.fromUTF8? (source.toUTF8.extract span.start span.stop)
  else none

/-- A node; `hint` is the declared type of a property as written. -/
structure Node where
  kind : Kind
  span : Span
  line : UInt32
  parent : Option Nat := none
  children : List Nat := []
  hint : Option String := none
  deriving DecidableEq, Repr

structure Tree where
  filePath : String
  source : String
  nodes : Array Node

namespace Tree

def root : Nat := 0

def node? (tree : Tree) (pos : Nat) : Option Node := tree.nodes[pos]?

/-- The kind of a node; a position outside the table is of no kind of interest. -/
def kind (tree : Tree) (pos : Nat) : Kind :=
  ((tree.node? pos).map (·.kind)).getD .other

def parent? (tree : Tree) (pos : Nat) : Option Nat :=
  (tree.node? pos).bind (·.parent)

def children (tree : Tree) (pos : Nat) : List Nat :=
  ((tree.node? pos).map (·.children)).getD []

def line (tree : Tree) (pos : Nat) : UInt32 :=
  ((tree.node? pos).map (·.line)).getD 0

def hint? (tree : Tree) (pos : Nat) : Option String :=
  (tree.node? pos).bind (·.hint)

/-- The source text of a node, empty when its span is not one of the source. -/
def text (tree : Tree) (pos : Nat) : String :=
  ((tree.node? pos).bind (·.span.textIn? tree.source)).getD ""

end Tree
end ActionAtlas.Syntax
