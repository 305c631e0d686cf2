import ActionAtlas.TypeScript.Parse

/-!
# Parts that many forms share

Names, keys, decorators, annotations, bindings and parameters.
-/

namespace ActionAtlas.TypeScript

open Parse

/-! ## Names and keys -/

def anyName : Parse Form := do
  if (← current).anyWord then single .name else failure

def plainName : Parse Form := do
  let context ← read
  match (← current).token with
  | .word name _ =>
      if isReserved name || (context.inYield && name == "yield") || (context.inAwait && name == "await")
      then failure
      else single .name
  | _ => failure

/-- The name of a member: its form, whether it is computed, and the word or text it consists of. -/
structure Key where
  form : Form
  computed : Bool
  text : Option String

def key (grammar : Grammar) : Parse Key := do
  match (← current).token with
  | .word name _ => return ⟨← single .name, false, some name⟩
  | .text value => return ⟨← single (.text value), false, some value⟩
  | .number => return ⟨← single .plain, false, none⟩
  | .privateName name => if name == "constructor" then failure else return ⟨← single .plain, false, none⟩
  | .mark .bracketOpen =>
      advance
      let form ← inBrackets grammar.value
      expect .bracketClose
      return ⟨form, true, none⟩
  | _ => failure

/-- The name of something outside a class, where no name is private. -/
def openKey (grammar : Grammar) : Parse Key := do
  match (← current).token with
  | .privateName _ => failure
  | _ => key grammar

def decorators (grammar : Grammar) : Parse (List Form) :=
  collect do
    let start ← here
    if ← eat .at then
      let operand ← withReader (fun c => { c with inDecorator := true }) grammar.leftHand
      some <$> finish .decorator start [operand]
    else pure none

/-! ## Types beside other forms -/

def annotation? (grammar : Grammar) : Parse (Option Form) :=
  whenTypes none do
    let start ← here
    if ← eat .colon then
      let type ← withFullTypes grammar.type
      some <$> finish .plain start [type]
    else pure none

/-- Let a shift operator count as an opening angle bracket with another one after it. -/
def splitShift : Parse Unit := do
  let now ← current
  if now.isMark .shiftLeft then
    setNow { now with
      token := .mark .less, span := ⟨now.span.start, now.span.start + 1⟩, rest := '<' :: now.rest }

def typeArguments (grammar : Grammar) : Parse Form := do
  let start ← here
  splitShift
  expect .less
  let first ← withFullTypes grammar.type
  let rest ← collect do
    if ← eat .comma then some <$> withFullTypes grammar.type else pure none
  expect .greater
  finish .plain start (first :: rest)

def typeArguments? (grammar : Grammar) : Parse (List Form) :=
  whenTypes [] do
    let now ← current
    if now.isMark .less || now.isMark .shiftLeft then return [← typeArguments grammar] else pure []

def typeParameter (grammar : Grammar) : Parse Form := do
  let start ← here
  let _ ← collect do
    let now ← current
    if now.isWord "const" || now.isWord "in" || now.isWord "out" then
      if (← peek).anyWord then
        advance
        pure (some ())
      else pure none
    else pure none
  let name ← plainName
  let bound ← if ← eatWord "extends" then pure [← withFullTypes grammar.type] else pure []
  let absent ← if ← eat .equals then pure [← withFullTypes grammar.type] else pure []
  finish .plain start (name :: bound ++ absent)

def typeParameters? (grammar : Grammar) : Parse (List Form) :=
  whenTypes [] do
    let start ← here
    if ← eat .less then
      if ← isAt .greater then failure
      let found ← commaUntil .greater (typeParameter grammar)
      return [← finish .plain start found]
    else pure []

def typeOrPredicate (grammar : Grammar) : Parse Form := do
  let start ← here
  let stated ← ahead do
    let next ← peek
    return (← current).isName && next.isWord "is" && !next.broken
  if stated then
    let name ← plainName
    expectWord "is"
    let type ← grammar.type
    finish .plain start [name, type]
  else grammar.type

def resultType? (grammar : Grammar) : Parse (List Form) :=
  whenTypes [] do
    let start ← here
    if ← eat .colon then
      let type ← withFullTypes (typeOrPredicate grammar)
      return [← finish .plain start [type]]
    else pure []

/-! ## Bindings -/

/-- A binding with the default that may follow it. The binding and its annotation stand side by side. -/
def withDefault (grammar : Grammar) (start : Nat) (bound : List Form) : Parse (List Form) := do
  if ← eat .equals then
    let value ← inBrackets grammar.value
    return [← finish .plain start (bound ++ [value])]
  else pure bound

def arrayElement (grammar : Grammar) : Parse Form := do
  let start ← here
  if ← isAt .comma then pure (.node .wrapper ⟨start, start⟩ [])
  else if ← eat .ellipsis then
    let bound ← grammar.binding
    let found ← finish .plain start [bound]
    unless ← isAt .bracketClose do failure
    pure found
  else
    let bound ← grammar.binding
    let found ← withDefault grammar start [bound]
    finish .wrapper start found

def objectElement (grammar : Grammar) : Parse Form := do
  let start ← here
  if ← eat .ellipsis then
    let bound ← grammar.binding
    let found ← finish .plain start [bound]
    unless ← isAt .braceClose do failure
    pure found
  else
    let keyed ← ahead do
      let _ ← openKey grammar
      isAt .colon
    if keyed then
      let name ← openKey grammar
      expect .colon
      let inner ← here
      let bound ← grammar.binding
      let found ← withDefault grammar inner [bound]
      finish .plain start (name.form :: found)
    else
      let name ← plainName
      if ← isAt .equals then
        let found ← withDefault grammar start [name]
        finish .plain start (name :: found)
      else finish .plain start [name]

/-- What a variable or a parameter is bound by: a name, or a list or an object that is taken apart. -/
def binding (grammar : Grammar) : Parse Form := do
  let start ← here
  match (← current).token with
  | .mark .bracketOpen =>
      advance
      let found ← inBrackets (commaUntil .bracketClose (arrayElement grammar))
      finish .plain start found
  | .mark .braceOpen =>
      advance
      let found ← inBrackets (commaUntil .braceClose (objectElement grammar))
      finish .plain start found
  | _ => plainName

/-- A binding followed by its annotation. The annotation, or a question mark without one, belongs to
the span of the binding. -/
def annotated (grammar : Grammar) (bound : Form) (questioned : Bool) : Parse (List Form) := do
  match ← annotation? grammar with
  | some type => pure [bound.stretch type.span.stop, type]
  | none =>
      let stop := (← get).before
      pure [if questioned then bound.stretch stop else bound]

/-! ## Parameters -/

def parameterModifiers : List String := ["public", "private", "protected", "readonly", "override"]

def skipParameterModifiers : Parse Unit :=
  whenTypes () do
    let _ ← collect do
      match (← current).token with
      | .word name false =>
          let next ← peek
          let continues := next.anyWord || next.isMark .braceOpen || next.isMark .bracketOpen
          if parameterModifiers.contains name && continues && !next.broken then
            advance
            pure (some ())
          else pure none
      | _ => pure none

/-- The parameters of a function: a parameter for its receiver, if there is one, and the others
together. -/
def parameters (grammar : Grammar) : Parse (List Form × Form) := do
  let start ← here
  expect .parenOpen
  let receiver ← whenTypes [] do
    let first ← here
    if ← eatWord "this" then
      let type := (← annotation? grammar).toList
      let found ← finish .plain first type
      unless ← isAt .parenClose do expect .comma
      pure [found]
    else pure []
  let others ← inBrackets <| commaUntil .parenClose do
    let first ← here
    let marked ← decorators grammar
    skipParameterModifiers
    let inner ← here
    if ← eat .ellipsis then
      let bound ← grammar.binding
      let type := (← annotation? grammar).toList
      let found ← finish .plain first (marked ++ bound :: type)
      unless ← isAt .parenClose do failure
      pure found
    else
      let bound ← grammar.binding
      let questioned ← whenTypes false (eat .question)
      let bound ← annotated grammar bound questioned
      let found ← withDefault grammar inner bound
      finish .plain first (marked ++ found)
  return (receiver, ← finish .plain start others)

end ActionAtlas.TypeScript
