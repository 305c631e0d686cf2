import ActionAtlas.TypeScript.Parts

/-!
# Types

From the outside in: function and conditional types, unions, intersections, operators, arrays, and the
types that stand by themselves.
-/

namespace ActionAtlas.TypeScript

open Parse

/-! ## Signatures -/

def signatureTail (grammar : Grammar) (result : Parse (List Form)) : Parse (List Form) := do
  let generic ← typeParameters? grammar
  let (receiver, others) ← parameters grammar
  let stated ← result
  pure (generic ++ receiver ++ others :: stated)

def arrowResult (grammar : Grammar) : Parse (List Form) := do
  let start ← here
  expect .arrow
  let type ← typeOrPredicate grammar
  return [← finish .plain start [type]]

def opensFunctionType (grammar : Grammar) : Parse Bool :=
  ahead do
    expect .parenOpen
    let now ← current
    if now.isMark .parenClose || now.isMark .ellipsis || now.isMark .at then pure true
    else
      skipParameterModifiers
      let now ← current
      if now.isWord "this" then advance
      else
        let _ ← grammar.binding
      let now ← current
      match now.token with
      | .mark .colon | .mark .comma | .mark .question | .mark .equals => pure true
      | .mark .parenClose => return (← peek).isMark .arrow
      | _ => pure false

def functionType (grammar : Grammar) : Parse Form := do
  let start ← here
  let _ ← eatWord "abstract"
  let _ ← eatWord "new"
  let parts ← signatureTail grammar (arrowResult grammar)
  finish .plain start parts

def isFunctionType (grammar : Grammar) : Parse Bool := do
  let now ← current
  match now.token with
  | .mark .less => pure true
  | .mark .parenOpen => opensFunctionType grammar
  | .word "new" false => pure true
  | .word "abstract" false => ahead do return (← peek).isWord "new"
  | _ => pure false

/-- An index signature such as `[key: string]: Value`. -/
def isIndexSignature : Parse Bool :=
  ahead do
    expect .bracketOpen
    let now ← current
    if now.isName then return (← peek).isMark .colon else pure false

/-- The parameter of an index signature is no name of its own. -/
def indexSignature (grammar : Grammar) (start : Nat) : Parse Form := do
  expect .bracketOpen
  let inner ← here
  let _ ← plainName
  let keyType := (← annotation? grammar).toList
  let parameter ← finish .plain inner keyType
  expect .bracketClose
  let type := (← annotation? grammar).toList
  finish .plain start (parameter :: type)

/-- A separator between the members of a type; a line end or the end of the type does as well. -/
def endMember : Parse Unit := do
  unless ← eat .comma do endStatement

def typeMember (grammar : Grammar) : Parse Form := do
  let start ← here
  let now ← current
  if now.isMark .parenOpen || now.isMark .less then
    let parts ← signatureTail grammar (resultType? grammar)
    endMember
    finish .plain start parts
  else if now.isWord "new" && (← ahead do
      let next ← peek
      return next.isMark .parenOpen || next.isMark .less) then
    advance
    let parts ← signatureTail grammar (resultType? grammar)
    endMember
    finish .plain start parts
  else
    if now.isWord "readonly" then
      if ← ahead (return (← peek).isKey) then advance
    if ← isIndexSignature then
      let found ← indexSignature grammar start
      endMember
      pure (found.stretch (← get).before)
    else
      let now ← current
      if now.isWord "get" || now.isWord "set" then
        if ← ahead (return (← peek).isKey) then advance
      let name ← openKey grammar
      let _ ← eat .question
      let now ← current
      let parts ←
        if now.isMark .parenOpen || now.isMark .less then signatureTail grammar (resultType? grammar)
        else pure (← annotation? grammar).toList
      endMember
      finish .plain start (name.form :: parts)

def typeMembers (grammar : Grammar) : Parse Form := do
  let start ← here
  expect .braceOpen
  let members ← withFullTypes (itemsUntil .braceClose (typeMember grammar))
  finish .plain start members

/-! ## Types that stand by themselves -/

def qualifiedName (first : Parse Form) : Parse Form := do
  let start ← here
  let head ← first
  grow (fun left => do
    if ← eat .dot then
      let name ← anyName
      some <$> finish .plain start [left, name]
    else pure none) head

def adjacentTypeArguments (grammar : Grammar) : Parse (List Form) := do
  if (← current).broken then pure [] else typeArguments? grammar

def typeReference (grammar : Grammar) : Parse Form := do
  let start ← here
  let name ← qualifiedName plainName
  let arguments ← adjacentTypeArguments grammar
  finish .typeReference start (name :: arguments)

def importType (grammar : Grammar) : Parse Form := do
  let start ← here
  expectWord "import"
  expect .parenOpen
  let source ← grammar.type
  let options ← if ← eat .comma then
      if ← isAt .parenClose then pure [] else
        let found ← inBrackets grammar.value
        let _ ← eat .comma
        pure [found]
    else pure []
  expect .parenClose
  let qualifier ← if ← eat .dot then pure [← qualifiedName anyName] else pure []
  let arguments ← adjacentTypeArguments grammar
  finish .plain start (source :: options ++ qualifier ++ arguments)

def typeQuery (grammar : Grammar) : Parse Form := do
  let start ← here
  expectWord "typeof"
  if ← isAtWord "import" then
    let found ← importType grammar
    finish .plain start [found]
  else
    let receiver ← isAtWord "this"
    let name ← qualifiedName (if receiver then single .plain else plainName)
    let arguments ← adjacentTypeArguments grammar
    finish .plain start (name :: arguments)

def isMappedType : Parse Bool :=
  ahead do
    expect .braceOpen
    let now ← current
    if now.isMark .plus || now.isMark .minus then return (← peek).isWord "readonly"
    else
      let _ ← eatWord "readonly"
      expect .bracketOpen
      if (← current).anyWord then return (← peek).isWord "in" else pure false

/-- A mapped type such as `{ [K in Keys]?: Value }`. -/
def mappedType (grammar : Grammar) : Parse Form := do
  let start ← here
  expect .braceOpen
  let signed (mark : Parse Bool) : Parse Unit := do
    if (← eat .plus) || (← eat .minus) then
      unless ← mark do failure
    else
      let _ ← mark
  signed (eatWord "readonly")
  expect .bracketOpen
  let inner ← here
  let name ← plainName
  expectWord "in"
  let keys ← withFullTypes grammar.type
  let parameter ← finish .plain inner [name, keys]
  let renamed ← if ← eatWord "as" then pure [← withFullTypes grammar.type] else pure []
  expect .bracketClose
  signed (eat .question)
  let type := (← annotation? grammar).toList
  let _ ← eat .semicolon
  let _ ← eat .comma
  expect .braceClose
  finish .plain start (parameter :: renamed ++ type)

def isNamedMember : Parse Bool :=
  ahead do
    unless (← current).anyWord do failure
    advance
    if ← eat .question then isAt .colon else isAt .colon

def tupleElement (grammar : Grammar) : Parse Form := do
  let start ← here
  if ← isNamedMember then
    let name ← anyName
    let _ ← eat .question
    expect .colon
    let type ← grammar.type
    finish .plain start [name, type]
  else
    let type ← grammar.type
    if ← eat .question then finish .plain start [type] else pure type

def tupleMember (grammar : Grammar) : Parse Form := do
  let start ← here
  if ← eat .ellipsis then
    let element ← tupleElement grammar
    finish .plain start [element]
  else tupleElement grammar

/-- What fills the holes of a template, up to its end. Only a template with a tag may hold escapes that
stand for nothing. -/
def templateParts (tagged : Bool) (hole : Parse Form) : Parse (List Form) := do
  match (← current).token with
  | .template last sound =>
      unless tagged || sound do failure
      if last then
        advance
        pure []
      else
        let first ← do
          advance
          hole
        let resume : Parse Bool := do
          let now ← current
          unless now.isMark .braceClose do failure
          match scanTemplate true now.rest now.span.stop with
          | some ((last, sound), rest) =>
              unless tagged || sound do failure
              setNow { now with
                token := .template last sound, span := ⟨now.span.start, rest.offset⟩, rest := rest.chars }
              advance
              pure last
          | none => failure
        let more ← growWithin (fun (found, done) => do
          if done then pure none
          else
            let last ← resume
            if last then pure (some (found, true))
            else
              let next ← hole
              pure (some (next :: found, false))) (← read).steps ([first], false)
        pure more.1.reverse
  | _ => failure

def builtinTypes : List String :=
  ["any", "unknown", "string", "number", "bigint", "symbol", "boolean", "undefined", "never", "object",
    "intrinsic"]

def wordType (grammar : Grammar) (word : String) : Parse Form := do
  let start ← here
  let next ← peek
  if builtinTypes.contains word && word != "intrinsic" && !next.isMark .dot then single .plain
  else
    match word with
    | "void" | "null" | "true" | "false" => single .plain
    | "this" =>
        let found ← single .plain
        let now ← current
        if now.isWord "is" && !now.broken then
          advance
          let type ← grammar.type
          finish .plain start [found, type]
        else pure found
    | "typeof" => typeQuery grammar
    | "import" => importType grammar
    | "asserts" =>
        if next.anyWord && !next.broken && (next.isName || next.isWord "this") && !next.isWord "is" then
          advance
          let subject ← if ← isAtWord "this" then single .plain else plainName
          let stated ← if ← eatWord "is" then pure [← grammar.type] else pure []
          finish .plain start (subject :: stated)
        else typeReference grammar
    | _ => typeReference grammar

def primaryType (grammar : Grammar) : Parse Form := do
  let start ← here
  match (← current).token with
  | .word word false => wordType grammar word
  | .word _ true => typeReference grammar
  | .text value => single (.text value)
  | .number => single .plain
  | .mark .minus =>
      advance
      match (← current).token with
      | .number =>
          advance
          finish .plain start []
      | _ => failure
  | .template _ _ =>
      let parts ← templateParts false (withFullTypes grammar.type)
      finish .plain start parts
  | .mark .braceOpen =>
      if ← isMappedType then mappedType grammar else typeMembers grammar
  | .mark .bracketOpen =>
      advance
      let members ← withFullTypes (commaUntil .bracketClose (tupleMember grammar))
      finish .plain start members
  | .mark .parenOpen =>
      advance
      let type ← withFullTypes grammar.type
      expect .parenClose
      finish .plain start [type]
  | _ => failure

/-! ## Operators on types -/

def suffixedType (grammar : Grammar) : Parse Form := do
  let start ← here
  let head ← primaryType grammar
  grow (fun type => do
    let now ← current
    if now.isMark .bracketOpen && !now.broken then
      advance
      if ← eat .bracketClose then some <$> finish .plain start [type]
      else
        let index ← withFullTypes grammar.type
        expect .bracketClose
        some <$> finish .plain start [type, index]
    else pure none) head

/-- The bound of an inferred type, unless it belongs to a conditional type. -/
def inferredBound (grammar : Grammar) : Parse (List Form) := do
  let found ← attempt do
    expectWord "extends"
    let bound ← withReader (fun c => { c with simpleTypes := true }) grammar.type
    if !(← read).simpleTypes && (← isAt .question) then failure
    pure bound
  pure found.toList

def operatorTypeWithin (grammar : Grammar) : Nat → Parse Form
  | 0 => failure
  | steps + 1 => do
      let start ← here
      let now ← current
      if now.isWord "keyof" || now.isWord "unique" || now.isWord "readonly" then
        advance
        let operand ← operatorTypeWithin grammar steps
        finish .plain start [operand]
      else if now.isWord "infer" then
        advance
        let inner ← here
        let name ← plainName
        let bound ← inferredBound grammar
        let parameter ← finish .plain inner (name :: bound)
        finish .plain start [parameter]
      else suffixedType grammar

def operatorType (grammar : Grammar) : Parse Form := do
  operatorTypeWithin grammar (← read).steps

/-- Types joined by an operator, which may also stand in front of the first one. -/
def joinedType (grammar : Grammar) (mark : Mark) (operand : Parse Form) : Parse Form := do
  let start ← here
  let leading ← eat mark
  let member : Parse Form := do
    if ← isFunctionType grammar then functionType grammar else operand
  let first ← if leading then member else operand
  if leading || (← isAt mark) then
    let rest ← collect do
      if ← eat mark then some <$> member else pure none
    finish .plain start (first :: rest)
  else pure first

def type (grammar : Grammar) : Parse Form := do
  if ← isFunctionType grammar then functionType grammar
  else
    let start ← here
    let checked ← joinedType grammar .pipe (joinedType grammar .ampersand (operatorType grammar))
    let now ← current
    if !(← read).simpleTypes && !now.broken && now.isWord "extends" then
      advance
      let bound ← withReader (fun c => { c with simpleTypes := true }) grammar.type
      expect .question
      let whenTrue ← withFullTypes grammar.type
      expect .colon
      let whenFalse ← withFullTypes grammar.type
      finish .plain start [checked, bound, whenTrue, whenFalse]
    else pure checked

end ActionAtlas.TypeScript
