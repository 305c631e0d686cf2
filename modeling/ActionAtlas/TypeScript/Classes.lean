import ActionAtlas.Text.Blank
import ActionAtlas.TypeScript.Functions
import ActionAtlas.TypeScript.Types

/-!
# Classes

Declarations and expressions of classes, and their members.
-/

namespace ActionAtlas.TypeScript

open Parse

/-! ## Declared types of properties -/

/-- A literal type is written with double quotes, whichever it had. -/
def quotedType (text : List Char) : List Char :=
  let trimmed := trimBlank text
  match trimmed, trimmed.reverse with
  | first :: rest, last :: _ :: _ =>
      if first == last && (first == '"' || first == '\'') then '"' :: rest.dropLast ++ ['"'] else trimmed
  | _, _ => trimmed

/-- The type of a property: the annotation as written, else the literal type of a constant text, else
`string` for a text, else the initial value as written. -/
def propertyHint (source : String) (constant : Bool) (type value : Option Form) : Option String :=
  let written (form : Form) : String := (form.span.textIn? source).getD ""
  match type, value with
  | some annotated, _ =>
      (annotated.parts.head?).map fun form => String.ofList (quotedType (written form).toList)
  | none, some (.node (.text literal) _ _) => some (if constant then "\"" ++ literal ++ "\"" else "string")
  | none, some form => some (written form)
  | none, none => none

/-! ## Members -/

def memberModifiers : List String :=
  ["public", "private", "protected", "static", "abstract", "override", "readonly", "declare", "accessor",
    "async"]

def isAccessibility (word : String) : Bool := ["public", "private", "protected"].contains word

def earlierThan (word : String) : List String :=
  if isAccessibility word then
    ["public", "private", "protected", "static", "abstract", "override", "readonly", "accessor", "async"]
  else
    match word with
    | "static" => ["static", "override", "readonly", "accessor", "async"]
    | "abstract" => ["abstract", "override", "async", "accessor"]
    | "override" => ["override", "readonly", "accessor", "async"]
    | other => [other]

def inOrder : List String → Bool
  | [] => true
  | word :: rest => !rest.any (fun later => (earlierThan later).contains word) && inOrder rest

/-- The modifiers in front of a member. A word counts as one when the name of the member can follow. -/
def modifierWords : Parse (List String) :=
  collect do
    match (← current).token with
    | .word name false =>
        let allowed := (← read).types || ["static", "accessor", "async"].contains name
        if memberModifiers.contains name && allowed then
          let next ← peek
          if (next.isKey || next.isMark .star) && (name == "static" || !next.broken) then
            advance
            pure (some name)
          else pure none
        else pure none
    | _ => pure none

def modifiers : Parse (List String) := do
  let words ← modifierWords
  if inOrder words then pure words else failure

def staticBlock (grammar : Grammar) (start : Nat) : Parse Form := do
  expectWord "static"
  let body ← withReader (fun c => { c with inAwait := false, inYield := false, inFunction := false })
    (block grammar)
  finish .plain start body.parts

def propertyTail (grammar : Grammar) (start : Nat) (before : List Form) (words : List String) :
    Parse Form := do
  let type ← annotation? grammar
  let value ←
    if ← eat .equals then
      let found ← withReader (fun c => { c with inAwait := false, inYield := false, inFunction := false })
        (inBrackets grammar.value)
      pure (some found)
    else pure none
  endStatement
  let hint := propertyHint (← read).source (words.contains "readonly") type value
  let shape := if words.contains "accessor" then Shape.plain else .property hint
  finish shape start (before ++ type.toList ++ value.toList)

def Key.isCalled (name : Key) (word : String) : Bool := name.text == some word && !name.computed

def methodShape (name : Key) (words : List String) (isAccessor : Bool) : Shape :=
  if isAccessor then .accessor
  else if name.isCalled "constructor" && !words.contains "static" then .constructor
  else .method

/-- Whether a method may have its name: what makes objects is a plain method, and the class itself has
one member that no other may stand for. -/
def allowsMethod (name : Key) (words : List String) (isAccessor isGenerator : Bool) : Bool :=
  if words.contains "static" then !name.isCalled "prototype"
  else !(name.isCalled "constructor" && (isAccessor || isGenerator || words.contains "async"))

def allowsProperty (name : Key) (words : List String) : Bool :=
  !name.isCalled "constructor" && !(words.contains "static" && name.isCalled "prototype")

def member (grammar : Grammar) : Parse Form := do
  let start ← here
  let marked ← decorators grammar
  if (← isAtWord "static") && (← ahead (return (← peek).isMark .braceOpen)) then
    staticBlock grammar start
  else
    let words ← modifiers
    if (← read).types && (← isIndexSignature) then
      let found ← indexSignature grammar start
      endMember
      pure (found.stretch (← get).before)
    else
      let now ← current
      let isAccessor ← do
        if now.isWord "get" || now.isWord "set" then
          if ← ahead (return (← peek).isKey) then
            advance
            pure true
          else pure false
        else pure false
      let isGenerator ← eat .star
      let name ← key grammar
      whenTypes () do
        unless ← eat .question do
          let now ← current
          if now.isMark .bang && !now.broken then advance
      let now ← current
      let inner ← here
      if now.isMark .parenOpen || (now.isMark .less && (← read).types) then
        unless allowsMethod name words isAccessor isGenerator do failure
        let body ← functionTail grammar inner (words.contains "async") isGenerator false []
        finish (methodShape name words isAccessor) start (marked ++ [name.form, body])
      else if isAccessor || isGenerator || words.contains "async" then failure
      else if allowsProperty name words then propertyTail grammar start (marked ++ [name.form]) words
      else failure

def classBody (grammar : Grammar) : Parse Form := do
  let start ← here
  expect .braceOpen
  let members ← inBrackets <| itemsUntil .braceClose do
    if ← isAt .semicolon then
      let now ← current
      advance
      pure (.node .wrapper now.span [])
    else member grammar
  finish .plain start members

/-! ## Heads -/

def splitInstantiation (form : Form) : Form × List Form :=
  match form with
  | .node .instantiation _ [operand, arguments] => (operand, [arguments])
  | _ => (form, [])

def heritage (grammar : Grammar) : Parse (List Form) := do
  let (operand, arguments) := splitInstantiation (← grammar.leftHand)
  let more ← if arguments.isEmpty then typeArguments? grammar else pure arguments
  pure (operand :: more)

def implemented (grammar : Grammar) : Parse Form := do
  let start ← here
  let name ← qualifiedName plainName
  let arguments ← typeArguments? grammar
  finish .plain start (name :: arguments)

def className : Parse (List Form) := do
  let now ← current
  if !now.isName then pure []
  else if now.isWord "implements" && (← ahead (return (← peek).anyWord)) then pure []
  else return [← plainName]

/-- A class from its keyword on. Its decorators come first among its parts. -/
def classForm (grammar : Grammar) (start : Nat) (marked : List Form) : Parse Form := do
  expectWord "class"
  let name ← className
  let generic ← typeParameters? grammar
  let base ← if ← eatWord "extends" then heritage grammar else pure []
  let promised ← whenTypes [] do
    if ← eatWord "implements" then
      let first ← implemented grammar
      let rest ← collect do
        if ← eat .comma then some <$> implemented grammar else pure none
      pure (first :: rest)
    else pure []
  let body ← classBody grammar
  finish .classDefinition start (marked ++ name ++ generic ++ base ++ promised ++ [body])

end ActionAtlas.TypeScript
