import ActionAtlas.Text.Segments
import ActionAtlas.TypeScript.Markup
import ActionAtlas.TypeScript.Statements

/-!
# Source files

The grammar as a whole, and the tree of a source file. The name of a file says which dialect it is
written in.
-/

namespace ActionAtlas.TypeScript

open Syntax (Tree)

structure Dialect where
  types : Bool
  markup : Bool
  ambient : Bool
  deriving DecidableEq, Repr

/-- The dialect of a file by its name. A name that says nothing stands for types without markup. -/
def Dialect.ofPath (path : String) : Dialect :=
  let name := (Segments.split '/' path.toList).getLast?.getD []
  match (Segments.split '.' name).reverse.map String.ofList with
  | [_] | [_, ""] => ⟨true, false, false⟩
  | extension :: inner :: before =>
      if ["js", "mjs", "cjs", "jsx"].contains extension then ⟨false, true, false⟩
      else if extension == "tsx" then ⟨true, true, false⟩
      else
        let isDeclaration := ["ts", "mts", "cts"].contains extension && inner == "d" && !before.isEmpty
        ⟨true, false, isDeclaration⟩
  | [] => ⟨true, false, false⟩

def Grammar.atDepth : Nat → Grammar
  | 0 =>
      { expression := failure, assignment := fun _ => failure, binary := fun _ => failure
        unary := failure, leftHand := failure, markup := failure, binding := failure, type := failure
        statement := failure }
  | depth + 1 =>
      { expression := fun context => TypeScript.expression (atDepth depth) context
        assignment := fun result context => TypeScript.assignment (atDepth depth) result context
        binary := fun least context => TypeScript.binary (atDepth depth) least context
        unary := fun context => TypeScript.unary (atDepth depth) context
        leftHand := fun context => TypeScript.leftHand (atDepth depth) context
        markup := fun context => TypeScript.markup (atDepth depth) context
        binding := fun context => TypeScript.binding (atDepth depth) context
        type := fun context => TypeScript.type (atDepth depth) context
        statement := fun context => TypeScript.statement (atDepth depth) context }

def program (grammar : Grammar) : Parse Form := do
  let statements ← Parse.collect do
    match (← Parse.current).token with
    | .finish => pure none
    | _ => some <$> grammar.statement
  if (← get).unsettled ≠ 0 then failure
  Parse.finish .wrapper 0 statements

/-- The source after a first line that names an interpreter. -/
def skipInterpreter (chars : List Char) : List Char × Nat :=
  match chars with
  | '#' :: '!' :: rest =>
      let line := rest.takeWhile fun c => !isLineEnd c
      (rest.dropWhile fun c => !isLineEnd c, 2 + (String.ofList line).utf8ByteSize)
  | _ => (chars, 0)

def formOf? (dialect : Dialect) (source : String) : Option Form := do
  let steps := source.utf8ByteSize + 2
  let (chars, offset) := skipInterpreter source.toList
  let first ← nextLexeme steps chars offset
  let context : Context :=
    { source, steps, types := dialect.types, markup := dialect.markup, ambient := dialect.ambient }
  let grammar := Grammar.atDepth (8 * steps)
  let (form, _) ← (program grammar).run context |>.run { now := first, before := 0, unsettled := 0 }
  pure form

def treeOf? (filePath source : String) : Option Tree :=
  (formOf? (Dialect.ofPath filePath) source).map fun form =>
    Tree.ofSteps filePath source form.toSteps

end ActionAtlas.TypeScript
