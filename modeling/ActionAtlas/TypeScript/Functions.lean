import ActionAtlas.TypeScript.Parts

/-!
# Functions

What follows the name of a function: its parameters, its result and its body.
-/

namespace ActionAtlas.TypeScript

open Parse

def insideFunction {α : Type} (isAsync isGenerator : Bool) (reader : Parse α) : Parse α :=
  withReader
    (fun c => { c with
      inAwait := isAsync, inYield := isGenerator, inFunction := true, allowIn := true, inDecorator := false
      simpleTypes := false })
    reader

def block (grammar : Grammar) : Parse Form := do
  let start ← here
  expect .braceOpen
  let statements ← inBrackets (itemsUntil .braceClose grammar.statement)
  finish .plain start statements

/-- What follows the name of a function. The body may be missing only where types are written. -/
def functionTail (grammar : Grammar) (start : Nat) (isAsync isGenerator needsBody : Bool)
    (name : List Form) : Parse Form :=
  insideFunction isAsync isGenerator do
    let generic ← typeParameters? grammar
    let (receiver, others) ← parameters grammar
    let stated ← resultType? grammar
    let body ←
      if ← isAt .braceOpen then pure [← block grammar]
      else if needsBody || !(← read).types then failure
      else do
        endStatement
        pure []
    finish .plain start (name ++ generic ++ receiver ++ others :: stated ++ body)

/-- A function from its keyword on; a declaration needs a name unless it is exported by default. -/
def functionForm (grammar : Grammar) (start : Nat) (isAsync needsName needsBody : Bool) : Parse Form := do
  expectWord "function"
  let isGenerator ← eat .star
  let name ←
    if (← current).isName then pure [← plainName]
    else if needsName then failure
    else pure []
  functionTail grammar start isAsync isGenerator needsBody name

end ActionAtlas.TypeScript
