import ActionAtlas.Syntax.LineIndex
import ActionAtlas.Syntax.Tree

/-!
# Building a tree from nested steps

A node is begun inside the innermost node that has not ended. A node of kind `other` whose only child
has its own span adds nothing: when it ends, its child takes its place.
-/

namespace ActionAtlas.Syntax

inductive Step where
  | enter (kind : Kind) (span : Span)
  | leaf (kind : Kind) (span : Span)
  | leave
  | hint (pos : Nat) (text : String)
  deriving Repr

/-- A tree in the making. `opened` lists the nodes that have not ended, innermost first and without
the root, which never ends. -/
structure Builder where
  lines : LineIndex
  nodes : Array Node
  opened : List Nat

namespace Builder

def start (source : String) : Builder where
  lines := .ofText source
  nodes := #[{ kind := .sourceFile, span := ⟨0, source.utf8ByteSize⟩, line := 1 }]
  opened := []

def innermost (builder : Builder) : Nat := builder.opened.headD Tree.root

/-- Begin a node as the last child of the innermost node. It is named by its position, which fits the 32
bits of an id while there are fewer than 2^32 nodes. -/
def enter (builder : Builder) (kind : Kind) (span : Span) : Builder :=
  let outer := builder.innermost
  let fresh := builder.nodes.size
  let node : Node := { kind, span, line := builder.lines.lineOf span.start, parent := some outer }
  { builder with
    nodes := (builder.nodes.push node).modify outer fun n => { n with children := n.children ++ [fresh] }
    opened := fresh :: builder.opened }

def wrapped? (nodes : Array Node) (pos : Nat) : Option (Nat × Nat) :=
  match nodes[pos]? with
  | some { kind := .other, span, parent := some parent, children := [child], .. } =>
      if (nodes[child]?.map (·.span)) = some span then some (parent, child) else none
  | _ => none

/-- Put the only child of a node that adds nothing in its place. The node stays in the table, without
parent and children. -/
def contract (nodes : Array Node) (pos : Nat) : Array Node :=
  match wrapped? nodes pos with
  | some (parent, child) =>
      ((nodes.modify parent fun n =>
          { n with children := n.children.map fun c => if c = pos then child else c }).modify child
        fun n => { n with parent := some parent }).modify pos
        fun n => { n with parent := none, children := [] }
  | none => nodes

def leave (builder : Builder) : Builder :=
  match builder.opened with
  | [] => builder
  | pos :: outer => { builder with nodes := contract builder.nodes pos, opened := outer }

def setHint (builder : Builder) (pos : Nat) (text : String) : Builder :=
  { builder with nodes := builder.nodes.modify pos fun n => { n with hint := some text } }

def run (builder : Builder) : Step → Builder
  | .enter kind span => builder.enter kind span
  | .leaf kind span => (builder.enter kind span).leave
  | .leave => builder.leave
  | .hint pos text => builder.setHint pos text

def close (builder : Builder) : Builder :=
  builder.opened.foldl (fun b _ => b.leave) builder

end Builder

def Tree.ofSteps (filePath source : String) (steps : List Step) : Tree where
  filePath
  source
  nodes := (steps.foldl Builder.run (Builder.start source)).close.nodes

end ActionAtlas.Syntax
