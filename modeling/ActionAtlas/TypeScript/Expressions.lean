import ActionAtlas.TypeScript.Classes

/-!
# Expressions

From the inside out: literals and names, members and calls, operators, arrow functions, assignments.
-/

namespace ActionAtlas.TypeScript

open Parse

/-! ## Lists and objects -/

def spreadOrValue (grammar : Grammar) : Parse Form := do
  let start ← here
  if ← eat .ellipsis then
    let operand ← grammar.value
    finish .spread start [operand]
  else grammar.value

def arrayForm (grammar : Grammar) : Parse Form := do
  let start ← here
  expect .bracketOpen
  let elements ← inBrackets <| commaUntil .bracketClose do
    let first ← here
    if ← isAt .comma then pure (.node .wrapper ⟨first, first⟩ []) else spreadOrValue grammar
  finish .array start elements

/-- An entry without a value of its own, possibly with a default. -/
def shortEntry (grammar : Grammar) (start : Nat) (name : Form) : Parse Form := do
  if ← eat .equals then
    let value ← grammar.value
    modify fun cursor => { cursor with unsettled := cursor.unsettled + 1 }
    finish .entryDefault start [name, value]
  else finish .entry start [name]

def objectEntry (grammar : Grammar) : Parse Form := do
  let start ← here
  if ← eat .ellipsis then
    let operand ← grammar.value
    finish .spread start [operand]
  else
    let now ← current
    let next ← peek
    let isAccessor := (now.isWord "get" || now.isWord "set") && next.isKey
    let isAsync := now.isWord "async" && (next.isKey || next.isMark .star) && !next.broken
    if isAccessor || isAsync then advance
    let isGenerator ← eat .star
    let short := (← current).isName
    let name ← openKey grammar
    let now ← current
    let inner ← here
    if now.isMark .parenOpen || (now.isMark .less && (← read).types) then
      let body ← functionTail grammar inner isAsync isGenerator true []
      finish .plain start [name.form, body]
    else if isAccessor || isAsync || isGenerator then failure
    else if ← eat .colon then
      let value ← grammar.value
      finish .entry start [name.form, value]
    else if short then shortEntry grammar start name.form
    else failure

def objectForm (grammar : Grammar) : Parse Form := do
  let start ← here
  expect .braceOpen
  let entries ← inBrackets (commaUntil .braceClose (objectEntry grammar))
  finish .object start entries

/-! ## Names, literals and what they are built into -/

def templateForm (grammar : Grammar) (tagged : Bool) : Parse Form := do
  let start ← here
  let parts ← templateParts tagged (inBrackets grammar.expression)
  finish .plain start parts

/-- A pattern literal, the slash of which is under the cursor. -/
def patternForm : Parse Form := do
  let now ← current
  let chars := if now.isMark .slashEquals then '=' :: now.rest else now.rest
  match scanPattern chars (now.span.start + 1) with
  | some rest =>
      setNow { now with
        token := .pattern, span := ⟨now.span.start, rest.offset⟩, rest := rest.chars }
      single .plain
  | none => failure

def arguments (grammar : Grammar) : Parse (List Form) := do
  expect .parenOpen
  inBrackets (commaUntil .parenClose (spreadOrValue grammar))

def rank? (lexeme : Lexeme) (allowIn : Bool) : Option Rank :=
  match lexeme.token with
  | .operator rank => some rank
  | .mark .less | .mark .greater => some .relation
  | .mark .shiftLeft => some .shift
  | .mark .plus | .mark .minus => some .sum
  | .mark .star | .mark .slash => some .product
  | .mark .pipe => some .bitOr
  | .mark .ampersand => some .bitAnd
  | .word "instanceof" false => some .relation
  | .word "in" false => if allowIn then some .relation else none
  | _ => none

/-- Words that begin no expression though they are reserved or not. -/
def beginsExpression (lexeme : Lexeme) : Bool :=
  match lexeme.token with
  | .word name _ =>
      !isReserved name ||
        ["this", "super", "null", "true", "false", "typeof", "void", "delete", "new", "function", "class",
          "import"].contains name
  | .number | .text _ | .template _ _ | .privateName _ => true
  | .mark mark =>
      [Mark.parenOpen, .bracketOpen, .braceOpen, .plus, .minus, .tilde, .bang, .plusPlus, .minusMinus,
        .less, .at, .slash, .slashEquals].contains mark
  | _ => false

def endsTypeArguments (lexeme : Lexeme) (allowIn : Bool) : Bool :=
  match lexeme.token with
  | .mark .parenOpen | .template _ _ => true
  | .mark .less | .mark .greater | .mark .plus | .mark .minus => false
  | .word "as" false | .word "satisfies" false => true
  | _ => lexeme.broken || (rank? lexeme allowIn).isSome || !beginsExpression lexeme

def expressionTypeArguments (grammar : Grammar) : Parse (Option Form) :=
  whenTypes none do
    attempt do
      let found ← typeArguments grammar
      unless endsTypeArguments (← current) (← read).allowIn do failure
      pure found

/-- A call of what has been read, with the type arguments split off. -/
def callOf (grammar : Grammar) (start : Nat) (callee : Form) : Parse Form := do
  let (operand, generic) := splitInstantiation callee
  let passed ← arguments grammar
  finish .call start (operand :: generic ++ passed)

def memberOf (start : Nat) (object : Form) : Parse Form := do
  match (← current).token with
  | .privateName _ =>
      let name ← single .plain
      finish .element start [object, name]
  | _ =>
      let name ← anyName
      finish .access start [object, name]

def elementOf (grammar : Grammar) (start : Nat) (object : Form) : Parse Form := do
  expect .bracketOpen
  let index ← inBrackets grammar.expression
  expect .bracketClose
  finish .element start [object, index]

/-- What has been read so far, and whether some link of the chain is optional. -/
structure Chain where
  form : Form
  isOptional : Bool

def optionalLink (grammar : Grammar) (start : Nat) (form : Form) : Parse Form := do
  match (← current).token with
  | .mark .parenOpen => callOf grammar start form
  | .mark .bracketOpen => elementOf grammar start form
  | .mark .less | .mark .shiftLeft =>
      let generic ← typeArguments grammar
      let passed ← arguments grammar
      finish .call start (form :: generic :: passed)
  | _ => memberOf start form

def link (grammar : Grammar) (start : Nat) (calls : Bool) (chain : Chain) : Parse (Option Chain) := do
  let form := chain.form
  let context ← read
  let now ← current
  match now.token with
  | .mark .dot =>
      advance
      return some { chain with form := ← memberOf start form }
  | .mark .questionDot =>
      if calls then
        advance
        return some ⟨← optionalLink grammar start form, true⟩
      else failure
  | .mark .bracketOpen =>
      if context.inDecorator then pure none
      else return some { chain with form := ← elementOf grammar start form }
  | .mark .bang =>
      if context.types && !now.broken then
        advance
        return some { chain with form := ← finish .cast start [form] }
      else pure none
  | .template _ _ =>
      if chain.isOptional then failure
      let (operand, generic) := splitInstantiation form
      let quasi ← templateForm grammar true
      return some { chain with form := ← finish .plain start (operand :: generic ++ [quasi]) }
  | .mark .parenOpen =>
      if calls then return some { chain with form := ← callOf grammar start form } else pure none
  | .mark .less | .mark .shiftLeft =>
      match ← expressionTypeArguments grammar with
      | some generic => return some { chain with form := ← finish .instantiation start [form, generic] }
      | none => pure none
  | _ => pure none

def chainFrom (grammar : Grammar) (start : Nat) (calls : Bool) (head : Form) : Parse Form := do
  let chain ← grow (link grammar start calls) ⟨head, false⟩
  if chain.isOptional then finish .optionalChain start [chain.form] else pure chain.form

/-- A keyword, a dot and a word that it knows, such as `new.target`. -/
def metaForm (start : Nat) (word : Form) (known : String) : Parse Form := do
  expect .dot
  unless ← isAtWord known do failure
  let name ← anyName
  finish .plain start [word, name]

def importCall (grammar : Grammar) (start : Nat) : Parse Form := do
  let passed ← arguments grammar
  if passed.isEmpty || passed.any (·.shape == .spread) then failure
  finish .plain start passed

/-- An import as an expression. A word after a dot may tell when the module is loaded. -/
def importForm (grammar : Grammar) : Parse Form := do
  let start ← here
  let word ← single .name
  if ← isAt .dot then
    let next ← peek
    if next.isWord "source" || next.isWord "defer" then
      advance
      advance
      importCall grammar start
    else metaForm start word "meta"
  else importCall grammar start

mutual

/-- The creation of an object. What is created may be created itself, hence the bound. -/
def newWithin (grammar : Grammar) : Nat → Parse Form
  | 0 => failure
  | steps + 1 => do
      let start ← here
      let word ← single .name
      if ← isAt .dot then metaForm start word "target"
      else
        let inner ← here
        if (← isAtWord "import") && (← ahead (return !(← peek).isMark .dot)) then failure
        let head ← primaryWithin grammar steps
        let callee ← chainFrom grammar inner false head
        let (operand, generic) := splitInstantiation callee
        let passed ← if ← isAt .parenOpen then arguments grammar else pure []
        finish .construct start (operand :: generic ++ passed)

def primaryWithin (grammar : Grammar) : Nat → Parse Form
  | 0 => failure
  | steps + 1 => do
      let start ← here
      let now ← current
      match now.token with
      | .word "this" false | .word "null" false | .word "true" false | .word "false" false => single .plain
      | .word "super" false =>
          let found ← single .plain
          let now ← current
          if now.isMark .parenOpen || now.isMark .dot || now.isMark .bracketOpen then pure found else failure
      | .word "function" false => functionForm grammar start false false true
      | .word "class" false => classForm grammar start []
      | .word "new" false => newWithin grammar steps
      | .word "import" false => importForm grammar
      | .word "async" false =>
          let next ← peek
          if next.isWord "function" && !next.broken then
            advance
            functionForm grammar start true false true
          else plainName
      | .word _ _ => plainName
      | .text value => single (.text value)
      | .number => single .plain
      | .template _ _ => templateForm grammar false
      | .privateName _ => if (← peek).isWord "in" then single .plain else failure
      | .mark .slash | .mark .slashEquals => patternForm
      | .mark .bracketOpen => arrayForm grammar
      | .mark .braceOpen => objectForm grammar
      | .mark .at =>
          let marked ← decorators grammar
          classForm grammar start marked
      | .mark .parenOpen =>
          advance
          let inner ← inBrackets grammar.expression
          expect .parenClose
          finish .parenthesized start [inner]
      | _ => failure

end

def leftHand (grammar : Grammar) : Parse Form := do
  let start ← here
  let head ← primaryWithin grammar (← read).steps
  chainFrom grammar start true head

/-! ## Operators -/

/-- The type after `as` or inside an assertion; `const` counts as a named type there. -/
def castType (grammar : Grammar) : Parse Form := do
  if ← isAtWord "const" then
    let start ← here
    let name ← single .name
    finish .typeReference start [name]
  else withFullTypes grammar.type

def unary (grammar : Grammar) : Parse Form := do
  let start ← here
  let context ← read
  let now ← current
  let operator : Parse Form := do
    advance
    let operand ← grammar.unary
    finish .unary start [operand]
  match now.token with
  | .mark .bang | .mark .tilde | .mark .plus | .mark .minus => operator
  | .word "typeof" false | .word "void" false | .word "delete" false => operator
  | .mark .plusPlus | .mark .minusMinus =>
      advance
      let operand ← grammar.unary
      unless operand.isPlace do failure
      finish .plain start [operand]
  | .mark .less =>
      if context.markup then
        let found ← grammar.markup
        chainFrom grammar start true found
      else if context.types then
        advance
        let type ← castType grammar
        expect .greater
        let operand ← grammar.unary
        finish .assertion start [type, operand]
      else failure
  | _ =>
      if context.inAwait && now.isWord "await" then operator
      else
        let operand ← grammar.leftHand
        let now ← current
        if (now.isMark .plusPlus || now.isMark .minusMinus) && !now.broken then
          unless operand.isPlace do failure
          advance
          finish .plain start [operand]
        else pure operand

/-- Let a closing angle bracket be the whole operator that it begins. -/
def wholeOperator : Parse Unit := do
  let now ← current
  if now.isMark .greater then
    let (token, rest, used) := afterGreater now.rest
    setNow { now with token, span := ⟨now.span.start, now.span.stop + used⟩, rest }

/-- The shape of two operands with an operator between them. Operators that pick the first defined
value do not mix with those that pick by truth. -/
def joined? (rank : Rank) (left right : Form) : Option Shape :=
  match rank with
  | .coalesce => if left.shape == .logical || right.shape == .logical then none else some .coalesce
  | .disjunction | .conjunction =>
      if left.shape == .coalesce || right.shape == .coalesce then none else some .logical
  | .power => if left.shape == .unary then none else some .plain
  | _ => some .plain

/-- One more operator and operand, when the operator is stronger than `least`. -/
def binaryStep (grammar : Grammar) (start least : Nat) (left : Form) : Parse (Option Form) := do
  wholeOperator
  let context ← read
  let now ← current
  match rank? now context.allowIn with
  | some rank =>
      if rank.strength > least || (rank == .power && rank.strength == least) then
        advance
        let right ← grammar.binary rank.strength
        match joined? rank left right with
        | some shape => some <$> finish shape start [left, right]
        | none => failure
      else pure none
  | none =>
      let casts := context.types && !now.broken && (now.isWord "as" || now.isWord "satisfies")
      if casts && Rank.relation.strength > least then
        advance
        let type ← castType grammar
        some <$> finish .cast start [left, type]
      else pure none

/-- Operands with operators stronger than `least` between them. -/
def binary (grammar : Grammar) (least : Nat) : Parse Form := do
  let start ← here
  let first ← grammar.unary
  grow (binaryStep grammar start least) first

/-! ## Arrow functions -/

inductive Verdict where
  | yes
  | no
  | maybe
  deriving DecidableEq

def verdictAfterParen (first : Lexeme) : Parse Verdict := do
  let second ← following first
  match second.token with
  | .mark .parenClose =>
      let third ← following second
      pure (if third.isMark .arrow || third.isMark .colon || third.isMark .braceOpen then .yes else .no)
  | .mark .bracketOpen | .mark .braceOpen => pure .maybe
  | .mark .ellipsis | .mark .at => pure .yes
  | .word name escaped =>
      let third ← following second
      if parameterModifiers.contains name && !escaped && third.isName then
        pure (if third.isWord "as" then .no else .yes)
      else if isReserved name && name != "this" then pure .no
      else
        match third.token with
        | .mark .colon => pure .yes
        | .mark .question =>
            let fourth ← following third
            pure (if [Token.mark .colon, .mark .comma, .mark .equals, .mark .parenClose].contains
              fourth.token then .yes else .no)
        | .mark .comma | .mark .equals | .mark .parenClose => pure .maybe
        | _ => pure .no
  | _ => pure .no

/-- Whether the type parameters of an arrow function open with this angle bracket. Where markup may be
written, only what cannot be markup counts. -/
def verdictAfterLess (first : Lexeme) : Parse Verdict := do
  let second ← following first
  if !second.isName && !second.isWord "const" then pure .no
  else if (← read).markup then
    let named ← if second.isWord "const" then following second else pure second
    let third ← following named
    if third.isWord "extends" then
      let fourth ← following third
      pure (if fourth.isMark .equals || fourth.isMark .greater || fourth.isMark .slash then .no else .yes)
    else pure (if third.isMark .comma || third.isMark .equals then .yes else .no)
  else pure .maybe

def arrowVerdict : Parse Verdict := do
  let found ← attempt do
    let now ← current
    let first ← if now.isWord "async" then following now else pure now
    if now.isWord "async" && first.broken then pure .no
    else if first.isMark .parenOpen then verdictAfterParen first
    else if first.isMark .less && (← read).types then verdictAfterLess first
    else pure .no
  pure (found.getD .no)

/-- The head of an arrow function: whether it is asynchronous, whether its result is stated, and its
parts. -/
structure ArrowHead where
  isAsync : Bool
  isStated : Bool
  parts : List Form

def arrowHead (grammar : Grammar) : Parse ArrowHead := do
  let isAsync ← eatWord "async"
  let (generic, receiver, others, stated) ←
    withReader (fun c => { c with inAwait := c.inAwait || isAsync, simpleTypes := false }) do
      let generic ← typeParameters? grammar
      let (receiver, others) ← parameters grammar
      let stated ← resultType? grammar
      pure (generic, receiver, others, stated)
  if (← current).broken then failure
  expect .arrow
  pure ⟨isAsync, !stated.isEmpty, generic ++ receiver ++ others :: stated⟩

def arrowBody (grammar : Grammar) (isAsync allowResult : Bool) : Parse Form := do
  if ← isAt .braceOpen then insideFunction isAsync false (block grammar)
  else
    withReader (fun c => { c with inAwait := isAsync, inYield := false, inDecorator := false })
      (grammar.assignment allowResult)

/-- An arrow function with parenthesized parameters, if there is one. Inside a conditional, a stated
result counts only when the colon of the conditional follows the function. -/
def arrowFunction? (grammar : Grammar) (allowResult : Bool) : Parse (Option Form) := do
  let start ← here
  let begun ← get
  let head ← match ← arrowVerdict with
    | .no => pure none
    | .yes => some <$> arrowHead grammar
    | .maybe => attempt (arrowHead grammar)
  match head with
  | none => pure none
  | some head =>
      let body ← arrowBody grammar head.isAsync allowResult
      if head.isStated && !allowResult && !(← isAt .colon) then
        set begun
        pure none
      else some <$> finish .plain start (head.parts ++ [body])

/-- An arrow function with one parameter and no parentheses, its parameter being read. -/
def shortArrow (grammar : Grammar) (start : Nat) (isAsync allowResult : Bool) (parameter : Form) :
    Parse Form := do
  expect .arrow
  let body ← arrowBody grammar isAsync allowResult
  finish .plain start [parameter, body]

def isShortAsync : Parse Bool :=
  ahead do
    let now ← current
    let next ← following now
    if now.isWord "async" && next.isName && !next.broken then return (← following next).isMark .arrow
    else pure false

/-! ## Assignments -/

def yieldForm (grammar : Grammar) : Parse Form := do
  let start ← here
  expectWord "yield"
  let now ← current
  if now.isMark .star && !now.broken then
    advance
    let operand ← grammar.value
    finish .plain start [operand]
  else if !now.broken && beginsExpression now then
    let operand ← grammar.value
    finish .plain start [operand]
  else finish .plain start []

/-- What may follow the first operand of an expression: an assignment or a conditional. -/
def assignmentTail (grammar : Grammar) (start unsettled : Nat) (allowResult : Bool) (left : Form) :
    Parse Form := do
  wholeOperator
  match (← current).token with
  | .mark .equals =>
      unless left.isTarget do failure
      if left.shape == .array || left.shape == .object then
        modify fun cursor => { cursor with unsettled := unsettled }
      advance
      let right ← grammar.assignment allowResult
      finish .assignment start [left, right]
  | .update | .mark .slashEquals =>
      unless left.isPlace do failure
      advance
      let right ← grammar.assignment allowResult
      finish .plain start [left, right]
  | .mark .question =>
      advance
      let whenTrue ← withReader (fun c => { c with allowIn := true, inDecorator := false })
        (grammar.assignment false)
      expect .colon
      let whenFalse ← grammar.assignment allowResult
      finish .plain start [left, whenTrue, whenFalse]
  | _ => pure left

/-- An expression without commas. -/
def assignment (grammar : Grammar) (allowResult : Bool) : Parse Form := do
  let start ← here
  let unsettled := (← get).unsettled
  if (← read).inYield && (← isAtWord "yield") then yieldForm grammar
  else if ← isShortAsync then
    advance
    let parameter ← plainName
    shortArrow grammar start true allowResult parameter
  else
    match ← arrowFunction? grammar allowResult with
    | some arrow => pure arrow
    | none =>
        let left ← grammar.binary 0
        let now ← current
        if left.shape == .name && now.isMark .arrow && !now.broken then
          shortArrow grammar start false allowResult left
        else assignmentTail grammar start unsettled allowResult left

def expression (grammar : Grammar) : Parse Form := do
  let start ← here
  let first ← grammar.value
  if ← isAt .comma then
    let rest ← collect do
      if ← eat .comma then some <$> grammar.value else pure none
    finish .plain start (first :: rest)
  else pure first

end ActionAtlas.TypeScript
