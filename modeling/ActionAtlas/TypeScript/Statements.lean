import ActionAtlas.TypeScript.Expressions

/-!
# Statements and declarations
-/

namespace ActionAtlas.TypeScript

open Parse

/-! ## Variables -/

inductive Initial where
  | free
  | required
  deriving DecidableEq

/-- A variable with its annotation and its value. A constant, and a binding that is taken apart, needs a
value where `initial` says so. -/
def declarator (grammar : Grammar) (isConstant : Bool) (initial : Initial) : Parse Form := do
  let start ← here
  let bound ← grammar.binding
  let isName := bound.shape == .name
  whenTypes () do
    let now ← current
    if isName && now.isMark .bang && !now.broken then advance
  let bound ← annotated grammar bound false
  let value ← if ← eat .equals then pure [← grammar.value] else pure []
  if value.isEmpty && initial = .required && (isConstant || !isName) then failure
  finish .plain start (bound ++ value)

def declarators (grammar : Grammar) (isConstant : Bool) (initial : Initial) : Parse (List Form) := do
  let first ← declarator grammar isConstant initial
  let rest ← collect do
    if ← eat .comma then some <$> declarator grammar isConstant initial else pure none
  pure (first :: rest)

def environment (grammar : Grammar) (start : Nat) : Parse Form := do
  let isConstant := !((← isAtWord "var") || (← isAtWord "let"))
  advance
  let initial := if (← read).ambient then Initial.free else .required
  let found ← declarators grammar isConstant initial
  endStatement
  finish .plain start found

def isLetDeclaration : Parse Bool :=
  ahead do
    let next ← peek
    return next.isName || next.isMark .bracketOpen || next.isMark .braceOpen

def isUsingDeclaration : Parse Bool :=
  ahead do
    let now ← current
    let next ← peek
    return now.isWord "using" && next.isName && !next.broken && !next.isWord "of"

/-! ## Control flow -/

def condition (grammar : Grammar) : Parse Form := do
  expect .parenOpen
  let found ← inBrackets grammar.expression
  expect .parenClose
  pure found

/-- A statement that another one governs. Declarations of names have no place there. -/
def governed (grammar : Grammar) : Parse Form := do
  let now ← current
  let declares ← ahead do
    if now.isWord "const" then return !(← peek).isWord "enum"
    else if now.isWord "let" then
      let next ← peek
      return next.isMark .bracketOpen || (next.isName && !next.broken)
    else return now.isWord "class"
  if declares then failure
  grammar.statement

def ifStatement (grammar : Grammar) (start : Nat) : Parse Form := do
  expectWord "if"
  let test ← condition grammar
  let whenTrue ← governed grammar
  let whenFalse ← if ← eatWord "else" then pure [← governed grammar] else pure []
  finish .plain start (test :: whenTrue :: whenFalse)

def countingLoop (grammar : Grammar) (start : Nat) (first : List Form) : Parse Form := do
  expect .semicolon
  let test ← if ← isAt .semicolon then pure [] else pure [← grammar.expression]
  expect .semicolon
  let step ← if ← isAt .parenClose then pure [] else pure [← grammar.expression]
  expect .parenClose
  let body ← governed grammar
  finish .plain start (first ++ test ++ step ++ [body])

def memberLoop? (grammar : Grammar) (start : Nat) (isAwaited : Bool) (first : Form) :
    Parse (Option Form) := do
  if ← eatWord "of" then
    let range ← grammar.value
    expect .parenClose
    let body ← governed grammar
    some <$> finish .plain start [first, range, body]
  else if !isAwaited && (← eatWord "in") then
    let range ← grammar.expression
    expect .parenClose
    let body ← governed grammar
    some <$> finish .plain start [first, range, body]
  else pure none

def haveValues (isConstant : Bool) (found : List Form) : Bool :=
  found.all fun form =>
    match form.parts with
    | [bound] => bound.shape == .name && !isConstant
    | _ => true

def forStatement (grammar : Grammar) (start : Nat) : Parse Form := do
  expectWord "for"
  let isAwaited ← if (← read).inAwait then eatWord "await" else pure false
  expect .parenOpen
  inBrackets do
    let inner ← here
    let now ← current
    let isLet ← isLetDeclaration
    if now.isMark .semicolon && !isAwaited then countingLoop grammar start []
    else if now.isWord "var" || now.isWord "const" || (now.isWord "let" && isLet) ||
        (← isUsingDeclaration) then
      advance
      let isConstant := !(now.isWord "var" || now.isWord "let")
      let found ← withReader (fun c => { c with allowIn := false }) (declarators grammar isConstant .free)
      let first ← finish .plain inner found
      match ← memberLoop? grammar start isAwaited first with
      | some loop => if found.length == 1 then pure loop else failure
      | none =>
          if isAwaited || !haveValues isConstant found then failure
          countingLoop grammar start [first]
    else
      let unsettled := (← get).unsettled
      let first ← withReader (fun c => { c with allowIn := false }) grammar.expression
      if (← isAtWord "of") || (← isAtWord "in") then
        unless first.isTarget do failure
        modify fun cursor => { cursor with unsettled := unsettled }
        match ← memberLoop? grammar start isAwaited first with
        | some loop => pure loop
        | none => failure
      else if isAwaited then failure
      else countingLoop grammar start [first]

def whileStatement (grammar : Grammar) (start : Nat) : Parse Form := do
  expectWord "while"
  let test ← condition grammar
  let body ← governed grammar
  finish .plain start [test, body]

def doStatement (grammar : Grammar) (start : Nat) : Parse Form := do
  expectWord "do"
  let body ← governed grammar
  expectWord "while"
  let test ← condition grammar
  let _ ← eat .semicolon
  finish .plain start [body, test]

def jumpStatement (start : Nat) : Parse Form := do
  advance
  unless ← canEnd do
    unless (← current).isName do failure
    advance
  endStatement
  finish .plain start []

def returnStatement (grammar : Grammar) (start : Nat) : Parse Form := do
  unless (← read).inFunction do failure
  advance
  let value ← if ← canEnd then pure [] else pure [← grammar.expression]
  endStatement
  finish .plain start value

def throwStatement (grammar : Grammar) (start : Nat) : Parse Form := do
  advance
  if (← current).broken then failure
  let value ← grammar.expression
  endStatement
  finish .plain start [value]

def withStatement (grammar : Grammar) (start : Nat) : Parse Form := do
  advance
  let object ← condition grammar
  let body ← governed grammar
  finish .plain start [object, body]

def switchCase (grammar : Grammar) : Parse Form := do
  let start ← here
  let test ←
    if ← eatWord "default" then pure []
    else do
      expectWord "case"
      pure [← grammar.expression]
  expect .colon
  let body ← collect do
    let now ← current
    if now.isWord "case" || now.isWord "default" || now.isMark .braceClose then pure none
    else some <$> grammar.statement
  finish .plain start (test ++ body)

def switchStatement (grammar : Grammar) (start : Nat) : Parse Form := do
  expectWord "switch"
  let subject ← condition grammar
  expect .braceOpen
  let cases ← inBrackets (itemsUntil .braceClose (switchCase grammar))
  finish .switch start (subject :: cases)

def caught (grammar : Grammar) : Parse (List Form) := do
  if ← eat .parenOpen then
    let start ← here
    let bound ← grammar.binding
    let bound ← annotated grammar bound false
    let found ← finish .plain start bound
    expect .parenClose
    pure [found]
  else pure []

def tryStatement (grammar : Grammar) (start : Nat) : Parse Form := do
  expectWord "try"
  let body ← block grammar
  let inner ← here
  let handler ←
    if ← eatWord "catch" then
      let bound ← caught grammar
      let body ← block grammar
      pure [← finish .plain inner (bound ++ [body])]
    else pure []
  let last ← if ← eatWord "finally" then pure [← block grammar] else pure []
  if handler.isEmpty && last.isEmpty then failure
  finish .plain start (body :: handler ++ last)

def expressionStatement (grammar : Grammar) (start : Nat) : Parse Form := do
  let labelled ← ahead do
    return (← current).isName && (← peek).isMark .colon
  if labelled then
    let _ ← plainName
    expect .colon
    let body ← governed grammar
    finish .plain start [body]
  else
    let found ← grammar.expression
    endStatement
    finish .plain start [found]

/-! ## Declarations of types -/

def interfaceDeclaration (grammar : Grammar) (start : Nat) : Parse Form := do
  expectWord "interface"
  let name ← plainName
  let generic ← typeParameters? grammar
  let parent : Parse Form := do
    let inner ← here
    let found ← heritage grammar
    finish .plain inner found
  let parents ←
    if ← eatWord "extends" then
      let first ← parent
      let rest ← collect do
        if ← eat .comma then some <$> parent else pure none
      pure (first :: rest)
    else pure []
  let body ← typeMembers grammar
  finish .plain start (name :: generic ++ parents ++ [body])

def typeDeclaration (grammar : Grammar) (start : Nat) : Parse Form := do
  expectWord "type"
  let name ← plainName
  let generic ← typeParameters? grammar
  expect .equals
  let found ←
    if (← isAtWord "intrinsic") && (← ahead (return !(← peek).isMark .dot)) then single .plain
    else grammar.type
  endStatement
  finish .plain start (name :: generic ++ [found])

def enumMember (grammar : Grammar) : Parse Form := do
  let start ← here
  let name ← match (← current).token with
    | .number => failure
    | .mark .bracketOpen =>
        match (← peek).token with
        | .text _ | .template true _ => key grammar
        | _ => failure
    | _ => openKey grammar
  let value ← if ← eat .equals then pure [← inBrackets grammar.value] else pure []
  finish .plain start (name.form :: value)

def enumDeclaration (grammar : Grammar) (start : Nat) : Parse Form := do
  let _ ← eatWord "const"
  expectWord "enum"
  let name ← plainName
  let inner ← here
  expect .braceOpen
  let members ← commaUntil .braceClose (enumMember grammar)
  let body ← finish .plain inner members
  finish .enumeration start [name, body]

/-- The name and the body of a namespace. A dotted name nests namespaces. -/
def namespaceWithin (grammar : Grammar) : Nat → Parse (List Form)
  | 0 => failure
  | steps + 1 => do
      let name ← plainName
      let inner ← here
      if ← eat .dot then
        let nested ← namespaceWithin grammar steps
        return [name, ← finish .plain inner nested]
      else return [name, ← block grammar]

def namespaceDeclaration (grammar : Grammar) (start : Nat) : Parse Form := do
  if ← eatWord "global" then
    let body ← block grammar
    finish .plain start [body]
  else
    advance
    match (← current).token with
    | .text value =>
        let name ← single (.text value)
        let body ←
          if ← isAt .braceOpen then pure [← block grammar]
          else do
            endStatement
            pure []
        finish .plain start (name :: body)
    | _ =>
        let parts ← namespaceWithin grammar (← read).steps
        finish .plain start parts

def isTypeDeclaration : Parse Bool :=
  ahead do
    let now ← current
    match now.token with
    | .word "enum" false => pure true
    | .word "interface" false | .word "type" false =>
        let next ← peek
        return next.isName && !next.broken
    | .word "namespace" false =>
        let next ← peek
        return next.isName && !next.broken
    | .word "module" false =>
        let next ← peek
        let isText := match next.token with
          | .text _ => true
          | _ => false
        return (next.isName || isText) && !next.broken
    | .word "global" false => return (← peek).isMark .braceOpen
    | .word "abstract" false =>
        let next ← peek
        return next.isWord "class" && !next.broken
    | .word "const" false => return (← peek).isWord "enum"
    | _ => pure false

def typeDeclarationForm (grammar : Grammar) (start : Nat) : Parse Form := do
  match (← current).token with
  | .word "interface" _ => interfaceDeclaration grammar start
  | .word "type" _ => typeDeclaration grammar start
  | .word "enum" _ | .word "const" _ => enumDeclaration grammar start
  | .word "abstract" _ =>
      advance
      classForm grammar start []
  | _ => namespaceDeclaration grammar start

def isAmbient : Parse Bool :=
  ahead do
    unless ← isAtWord "declare" do failure
    advance
    let now ← current
    if now.broken then pure false
    else if ["var", "let", "const", "function", "class", "async", "import"].any now.isWord then pure true
    else isTypeDeclaration

/-! ## Imports and exports -/

def moduleName : Parse Form := do
  match (← current).token with
  | .text value => single (.text value)
  | _ => anyName

/-- An entry of a list of imports or exports: the name there and the name here. The word for types may
stand in front. -/
def specifier : Parse Form := do
  let start ← here
  let marked ← whenTypes false <| ahead do
    unless ← isAtWord "type" do failure
    let second ← peek
    if second.isMark .comma || second.isMark .braceClose then pure false
    else if second.isWord "as" then
      let third ← following second
      if third.isWord "as" then
        let fourth ← following third
        pure fourth.anyWord
      else pure !third.anyWord
    else pure true
  if marked then advance
  let outer ← moduleName
  let inner ← if ← eatWord "as" then pure [← moduleName] else pure []
  finish .plain start (outer :: inner)

def specifiers : Parse (List Form) := do
  expect .braceOpen
  commaUntil .braceClose specifier

def bindsName (entry : Form) : Bool :=
  match entry.parts.getLast? with
  | some (.node .name _ _) => true
  | _ => false

def importSpecifiers : Parse (List Form) := do
  let found ← specifiers
  if found.all bindsName then pure found else failure

def moduleText : Parse Form := do
  match (← current).token with
  | .text value => single (.text value)
  | _ => failure

def importAttributes (grammar : Grammar) : Parse (List Form) := do
  let now ← current
  if now.isWord "with" || (now.isWord "assert" && !now.broken) then
    let start ← here
    advance
    expect .braceOpen
    let found ← commaUntil .braceClose do
      let inner ← here
      let name ← openKey grammar
      expect .colon
      let value ← moduleText
      finish .plain inner [name.form, value]
    return [← finish .plain start found]
  else pure []

def fromModule (grammar : Grammar) : Parse (List Form) := do
  expectWord "from"
  let source ← moduleText
  let attributes ← importAttributes grammar
  pure (source :: attributes)

/-- What an import binds besides a default: everything under one name, or names from a list. -/
def importedNames : Parse (List Form) := do
  let start ← here
  if ← eat .star then
    expectWord "as"
    let name ← plainName
    return [← finish .plain start [name]]
  else importSpecifiers

def importEquals (start : Nat) (name : Form) : Parse Form := do
  expect .equals
  let inner ← here
  let isModule ← ahead do
    return (← current).isWord "require" && (← peek).isMark .parenOpen
  let target ←
    if isModule then do
      advance
      expect .parenOpen
      let source ← moduleText
      expect .parenClose
      finish .plain inner [source]
    else qualifiedName plainName
  endStatement
  finish .plain start [name, target]

/-- Pass over a word after `import` that tells when the module is loaded. -/
def skipPhase : Parse Unit := do
  let isPhase ← ahead do
    let next ← peek
    if ← isAtWord "defer" then return next.isMark .star
    else if ← isAtWord "source" then
      if !next.isName then return false
      else if next.isWord "from" then return (← following next).isWord "from"
      else return true
    else return false
  if isPhase then advance

/-- Whether the word for types after `import` or `export` is not itself the name imported. -/
def isTypeOnlyImport : Parse Bool :=
  whenTypes false <| ahead do
    unless ← isAtWord "type" do failure
    let second ← peek
    if second.isMark .braceOpen || second.isMark .star then pure true
    else if second.isName then
      if second.isWord "from" then
        let third ← following second
        return third.isWord "from" || third.isMark .equals
      else pure true
    else pure false

def importDeclaration (grammar : Grammar) (start : Nat) : Parse Form := do
  expectWord "import"
  match (← current).token with
  | .text _ =>
      let source ← moduleText
      let attributes ← importAttributes grammar
      endStatement
      finish .plain start (source :: attributes)
  | _ =>
      if ← isTypeOnlyImport then advance else skipPhase
      if (← current).isName then
        let name ← plainName
        if (← read).types && (← isAt .equals) then importEquals start name
        else
          let others ← if ← eat .comma then importedNames else pure []
          let source ← fromModule grammar
          endStatement
          finish .plain start (name :: others ++ source)
      else
        let names ← importedNames
        let source ← fromModule grammar
        endStatement
        finish .plain start (names ++ source)

def areLocal (found : List Form) : Bool :=
  found.all fun form =>
    match form.parts with
    | .node .name _ _ :: _ => true
    | _ => false

/-- Whether no word that cannot name anything stands first in an entry of a list of exports. -/
def areNames (source : String) (found : List Form) : Bool :=
  found.all fun form =>
    match form.parts with
    | first :: _ => !isReserved ((first.span.textIn? source).getD "")
    | [] => true

def exportList (grammar : Grammar) (start : Nat) : Parse Form := do
  let found ← specifiers
  let source ←
    if ← isAtWord "from" then fromModule grammar
    else if areLocal found && areNames (← read).source found then pure []
    else failure
  endStatement
  finish .wrapper start (found ++ source)

def exportAll (grammar : Grammar) (start : Nat) : Parse Form := do
  expect .star
  let name ← if ← eatWord "as" then pure [← moduleName] else pure []
  let source ← fromModule grammar
  endStatement
  finish .plain start (name ++ source)

/-- A declaration: of variables, a function, a class or a type. Modifiers and decorators in front of it
belong to it. -/
def declaration (grammar : Grammar) (start : Nat) (marked : List Form) : Parse Form := do
  let context ← read
  let now ← current
  if context.types && (← isAmbient) then
    advance
    withReader (fun c => { c with ambient := true }) do
      if ← isTypeDeclaration then
        if ← eatWord "abstract" then classForm grammar start marked
        else typeDeclarationForm grammar start
      else
        let now ← current
        if now.isWord "class" then classForm grammar start marked
        else if now.isWord "function" then functionForm grammar start false true false
        else if now.isWord "async" then
          advance
          functionForm grammar start true true false
        else if now.isWord "import" then importDeclaration grammar start
        else environment grammar start
  else if context.types && (← isTypeDeclaration) then
    if ← eatWord "abstract" then classForm grammar start marked
    else if marked.isEmpty then typeDeclarationForm grammar start
    else failure
  else if now.isWord "class" then classForm grammar start marked
  else if !marked.isEmpty then failure
  else if now.isWord "function" then functionForm grammar start false true false
  else if now.isWord "async" then
    advance
    functionForm grammar start true true false
  else if now.isWord "var" || now.isWord "const" || now.isWord "let" then environment grammar start
  else failure

def defaultExport (grammar : Grammar) (marked : List Form) : Parse Form := do
  let inner ← here
  let now ← current
  let next ← peek
  if now.isMark .at then
    let more ← decorators grammar
    let _ ← eatWord "abstract"
    classForm grammar inner (marked ++ more)
  else if now.isWord "class" then classForm grammar inner marked
  else if now.isWord "abstract" && next.isWord "class" then
    advance
    classForm grammar inner marked
  else if now.isWord "function" then functionForm grammar inner false false false
  else if now.isWord "async" && next.isWord "function" && !next.broken then
    advance
    functionForm grammar inner true false false
  else if (← read).types && now.isWord "interface" && next.isName && !next.broken then
    interfaceDeclaration grammar inner
  else
    let found ← grammar.value
    endStatement
    pure found

/-- An export. Decorators in front of it belong to the class it exports. -/
def exportDeclaration (grammar : Grammar) (start : Nat) (marked : List Form) : Parse Form := do
  expectWord "export"
  let context ← read
  let now ← current
  let inner ← here
  if ← eatWord "default" then
    let found ← defaultExport grammar marked
    finish .wrapper start [found]
  else if now.isMark .star then exportAll grammar start
  else if now.isMark .braceOpen then exportList grammar start
  else if context.types && now.isMark .equals then
    advance
    let found ← grammar.value
    endStatement
    finish .plain start [found]
  else if context.types && now.isWord "as" then
    advance
    expectWord "namespace"
    let name ← plainName
    endStatement
    finish .plain start [name]
  else if context.types && now.isWord "import" then
    let found ← importDeclaration grammar inner
    finish .wrapper start [found]
  else
    let next ← peek
    if context.types && now.isWord "type" && next.isMark .braceOpen then
      advance
      exportList grammar start
    else if context.types && now.isWord "type" && next.isMark .star then
      advance
      exportAll grammar start
    else
      let more ← decorators grammar
      let found ← declaration grammar inner (marked ++ more)
      finish .wrapper start [found]

/-! ## Any statement -/

def wordStatement (grammar : Grammar) (start : Nat) (word : String) : Parse Form := do
  let types := (← read).types
  match word with
  | "var" => environment grammar start
  | "const" => declaration grammar start []
  | "let" => if ← isLetDeclaration then environment grammar start else expressionStatement grammar start
  | "function" => functionForm grammar start false true false
  | "class" => classForm grammar start []
  | "if" => ifStatement grammar start
  | "for" => forStatement grammar start
  | "while" => whileStatement grammar start
  | "do" => doStatement grammar start
  | "continue" | "break" => jumpStatement start
  | "return" => returnStatement grammar start
  | "with" => withStatement grammar start
  | "switch" => switchStatement grammar start
  | "throw" => throwStatement grammar start
  | "try" => tryStatement grammar start
  | "debugger" =>
      advance
      endStatement
      finish .plain start []
  | "import" =>
      let next ← peek
      if next.isMark .parenOpen || next.isMark .dot then expressionStatement grammar start
      else importDeclaration grammar start
  | "export" => exportDeclaration grammar start []
  | "async" =>
      let next ← peek
      if next.isWord "function" && !next.broken then declaration grammar start []
      else expressionStatement grammar start
  | _ =>
      if types && ((← isAmbient) || (← isTypeDeclaration)) then declaration grammar start []
      else if ← isUsingDeclaration then environment grammar start
      else if word == "await" && (← ahead do
          advance
          isUsingDeclaration) then
        advance
        environment grammar start
      else expressionStatement grammar start

def statement (grammar : Grammar) : Parse Form := do
  let start ← here
  match (← current).token with
  | .mark .braceOpen => block grammar
  | .mark .semicolon =>
      advance
      finish .plain start []
  | .mark .at =>
      let marked ← decorators grammar
      if ← isAtWord "export" then exportDeclaration grammar start marked
      else declaration grammar start marked
  | .word word false => wordStatement grammar start word
  | _ => expressionStatement grammar start

end ActionAtlas.TypeScript
