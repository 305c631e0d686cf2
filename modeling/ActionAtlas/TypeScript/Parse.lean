import ActionAtlas.TypeScript.Form
import ActionAtlas.TypeScript.Token.Scan

/-!
# Reading forms

A reader of forms looks at the token under the cursor and takes as many tokens as the form has. It fails
without a message: a source with an error in it has no form.
-/

namespace ActionAtlas.TypeScript

open Syntax (Span)

/-- What a reader has to know about the place it reads at. `steps` bounds every repetition and is
larger than the number of characters of the source. -/
structure Context where
  source : String
  steps : Nat
  /-- Whether types may be written. -/
  types : Bool
  /-- Whether markup may be written. -/
  markup : Bool
  /-- Whether declarations describe something defined elsewhere. -/
  ambient : Bool
  /-- Whether `in` is an operator. -/
  allowIn : Bool := true
  inAwait : Bool := true
  inYield : Bool := false
  inFunction : Bool := false
  inDecorator : Bool := false
  /-- Whether a conditional type has to stand in parentheses. -/
  simpleTypes : Bool := false

/-- The token to be read next, the end of the one before it, and the number of short entries with a
default that no assignment has made targets yet. -/
structure Cursor where
  now : Lexeme
  before : Nat
  unsettled : Nat

abbrev Parse := ReaderT Context (StateT Cursor Option)

namespace Parse

def current : Parse Lexeme := return (← get).now

def here : Parse Nat := return (← current).span.start

def setNow (now : Lexeme) : Parse Unit := modify fun cursor => { cursor with now := now }

def following (lexeme : Lexeme) : Parse Lexeme := do
  match nextLexeme (← read).steps lexeme.rest lexeme.span.stop with
  | some next => pure next
  | none => failure

def peek : Parse Lexeme := do following (← current)

def advance : Parse Unit := do
  let now ← current
  let next ← following now
  modify fun cursor => { cursor with now := next, before := now.span.stop }

/-- Run a reader; when it fails, nothing has been read. -/
def attempt {α : Type} (reader : Parse α) : Parse (Option α) := fun context cursor =>
  match reader context cursor with
  | some (a, after) => some (some a, after)
  | none => some (none, cursor)

/-- Ask a question about what follows without reading it; a failure means no. -/
def ahead (question : Parse Bool) : Parse Bool := fun context cursor =>
  match question context cursor with
  | some (yes, _) => some (yes, cursor)
  | none => some (false, cursor)

def whenTypes {α : Type} (absent : α) (reader : Parse α) : Parse α := do
  if (← read).types then reader else pure absent

def isAt (mark : Mark) : Parse Bool := return (← current).isMark mark

def isAtWord (word : String) : Parse Bool := return (← current).isWord word

def eat (mark : Mark) : Parse Bool := do
  if ← isAt mark then
    advance
    pure true
  else pure false

def eatWord (word : String) : Parse Bool := do
  if ← isAtWord word then
    advance
    pure true
  else pure false

def expect (mark : Mark) : Parse Unit := do
  unless ← eat mark do failure

def expectWord (word : String) : Parse Unit := do
  unless ← eatWord word do failure

/-- A form that began at `start` and ends with the last token taken. -/
def finish (shape : Shape) (start : Nat) (parts : List Form) : Parse Form :=
  return .node shape ⟨start, (← get).before⟩ parts

def single (shape : Shape) : Parse Form := do
  let now ← current
  advance
  pure (.node shape now.span [])

/-- A semicolon, or a place where one may be left out. -/
def endStatement : Parse Unit := do
  let now ← current
  match now.token with
  | .mark .semicolon => advance
  | .mark .braceClose | .finish => pure ()
  | _ => unless now.broken do failure

def canEnd : Parse Bool := do
  let now ← current
  match now.token with
  | .mark .semicolon | .mark .braceClose | .finish => pure true
  | _ => pure now.broken

def collectWithin {α : Type} (next : Parse (Option α)) : Nat → List α → Parse (List α)
  | 0, _ => failure
  | steps + 1, found => do
      match ← next with
      | some a => collectWithin next steps (a :: found)
      | none => pure found.reverse

def collect {α : Type} (next : Parse (Option α)) : Parse (List α) := do
  collectWithin next (← read).steps []

def growWithin {α : Type} (next : α → Parse (Option α)) : Nat → α → Parse α
  | 0, _ => failure
  | steps + 1, a => do
      match ← next a with
      | some b => growWithin next steps b
      | none => pure a

def grow {α : Type} (next : α → Parse (Option α)) (a : α) : Parse α := do
  growWithin next (← read).steps a

/-- Items up to a closing mark, which is taken. -/
def itemsUntil (close : Mark) (item : Parse Form) : Parse (List Form) := do
  let items ← collect do
    if ← isAt close then pure none else some <$> item
  expect close
  pure items

/-- Items with commas between them up to a closing mark, which is taken. A last comma is allowed. -/
def commaUntil (close : Mark) (item : Parse Form) : Parse (List Form) :=
  itemsUntil close do
    let found ← item
    unless ← isAt close do expect .comma
    pure found

def withFullTypes {α : Type} (reader : Parse α) : Parse α :=
  withReader (fun c => { c with simpleTypes := false }) reader

/-- Read inside brackets, where `in` is an operator and nothing of the decorator around matters. -/
def inBrackets {α : Type} (reader : Parse α) : Parse α :=
  withReader (fun c => { c with allowIn := true, inDecorator := false, simpleTypes := false }) reader

end Parse

/-- The readers that refer to each other. Each module of the grammar is written over a grammar for
what is nested in its forms. -/
structure Grammar where
  /-- Expressions with commas. -/
  expression : Parse Form
  /-- Expressions without commas; the flag says whether an arrow function may state its result type
  without a colon after it. -/
  assignment : Bool → Parse Form
  /-- Operators at least as strong as a given one. -/
  binary : Nat → Parse Form
  unary : Parse Form
  leftHand : Parse Form
  markup : Parse Form
  binding : Parse Form
  type : Parse Form
  statement : Parse Form

/-- An expression without commas. -/
def Grammar.value (grammar : Grammar) : Parse Form := grammar.assignment true

end ActionAtlas.TypeScript
