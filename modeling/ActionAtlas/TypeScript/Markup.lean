import ActionAtlas.TypeScript.Expressions

/-!
# Markup

Elements in angle brackets among expressions. A tag that begins with a small letter is no name of the
program; any other tag refers to one.
-/

namespace ActionAtlas.TypeScript

open Parse

/-- Characters of a name in markup; unlike other names it may hold dashes. -/
def scanMarkupName : List Char → Nat → List Char → List Char × Rest
  | c :: rest, offset, name =>
      if isNamePart c || c == '-' then scanMarkupName rest (offset + c.utf8Size) (c :: name)
      else (name.reverse, ⟨c :: rest, offset⟩)
  | [], offset, name => (name.reverse, ⟨[], offset⟩)

def markupWord : Parse String := do
  let now ← current
  match now.token with
  | .word name _ =>
      let (more, rest) := scanMarkupName now.rest now.span.stop []
      setNow { now with span := ⟨now.span.start, rest.offset⟩, rest := rest.chars }
      pure (name ++ String.ofList more)
  | _ => failure

def isReferringTag (name : String) : Bool :=
  match name.toList with
  | c :: rest => !(c.toNat < 128 && c.isLower) && !rest.contains '-'
  | [] => false

def tagName : Parse (Form × String) := do
  let start ← here
  let text ← markupWord
  let isReceiver := text == "this"
  let dotted := (← peek).isMark .dot
  let head ← single (if !isReceiver && (dotted || isReferringTag text) then .name else .plain)
  if ← isAt .colon then
    advance
    let local_ ← markupWord
    let _ ← single .plain
    return (← finish .plain start [], text ++ ":" ++ local_)
  else
    grow (fun (form, text) => do
      if ← eat .dot then
        let member ← markupWord
        let _ ← single .plain
        return some (← finish .plain start [form], text ++ "." ++ member)
      else pure none) (head, text)

/-- The characters of a quoted value, in which nothing is escaped. -/
def scanMarkupText (quote : Char) : List Char → Nat → Option Rest
  | [], _ => none
  | c :: rest, offset =>
      if c == quote then some ⟨rest, offset + 1⟩ else scanMarkupText quote rest (offset + c.utf8Size)

/-- The expression in braces under the cursor, which may be empty. The closing brace is left under the
cursor. -/
def braced (grammar : Grammar) : Parse (List Form) := do
  expect .braceOpen
  if ← isAt .braceClose then pure []
  else if ← eat .ellipsis then return [← inBrackets grammar.value]
  else return [← inBrackets grammar.expression]

/-- The value of an attribute, which is read without looking at what follows the equals sign first. -/
def attributeValue (grammar : Grammar) : Parse (List Form) := do
  let now ← current
  match skipGap .blank now.rest now.span.stop false with
  | some (gap, _) =>
      match gap.chars with
      | quote :: rest =>
          if quote == '"' || quote == '\'' then
            match scanMarkupText quote rest (gap.offset + 1) with
            | some after =>
                setNow { now with
                  token := .pattern, span := ⟨gap.offset, after.offset⟩, rest := after.chars }
                return [← single .plain]
            | none => failure
          else
            advance
            if ← isAt .braceOpen then
              let found ← braced grammar
              expect .braceClose
              pure found
            else return [← grammar.markup]
      | [] => failure
  | none => failure

def attributes (grammar : Grammar) : Parse (List Form) :=
  collect do
    let start ← here
    let now ← current
    if now.isMark .braceOpen then
      let found ← braced grammar
      expect .braceClose
      some <$> finish .plain start found
    else if now.anyWord then
      let _ ← markupWord
      let _ ← single .plain
      if ← eat .colon then
        let _ ← markupWord
        let _ ← single .plain
      let value ← if ← isAt .equals then attributeValue grammar else pure []
      some <$> finish .plain start value
    else pure none

def skipMarkupText : List Char → Nat → Option Rest
  | [], _ => none
  | c :: rest, offset =>
      if c == '<' || c == '\x7b' then some ⟨c :: rest, offset⟩
      else if c == '>' || c == '\x7d' then none
      else skipMarkupText rest (offset + c.utf8Size)

def intoContent : Parse Unit := do
  let now ← current
  match skipMarkupText now.rest now.span.stop with
  | some rest =>
      match nextLexeme (← read).steps rest.chars rest.offset with
      | some next => modify fun cursor => { cursor with now := next, before := rest.offset }
      | none => failure
  | none => failure

/-- Leave an element, the last token of which is under the cursor. Inside another element, text may
follow. -/
def leaveElement (inside : Bool) : Parse Unit := do
  if inside then intoContent else advance

/-- An element or a fragment from its angle bracket on. `inside` says whether it stands in another. -/
def elementWithin (grammar : Grammar) : Nat → Bool → Parse Form
  | 0, _ => failure
  | steps + 1, inside => do
      let start ← here
      expect .less
      let content : Parse (List Form) := do
        unless ← isAt .greater do failure
        intoContent
        collect do
          let inner ← here
          if ← isAt .braceOpen then
            let found ← braced grammar
            unless ← isAt .braceClose do failure
            let stop := (← current).span.stop
            intoContent
            pure (some (.node .plain ⟨inner, stop⟩ found))
          else if ← ahead (return (← peek).isMark .slash) then pure none
          else some <$> elementWithin grammar steps true
      let close (text : Option String) : Parse Nat := do
        expect .less
        expect .slash
        match text with
        | some text =>
            let (_, closing) ← tagName
            unless closing == text do failure
        | none => pure ()
        let now ← current
        unless now.isMark .greater do failure
        leaveElement inside
        pure now.span.stop
      if ← isAt .greater then
        let children ← content
        let stop ← close none
        pure (.node .plain ⟨start, stop⟩ children)
      else
        let (name, text) ← tagName
        let generic ← typeArguments? grammar
        let given ← attributes grammar
        if ← eat .slash then
          let now ← current
          unless now.isMark .greater do failure
          leaveElement inside
          pure (.node .plain ⟨start, now.span.stop⟩ (name :: generic ++ given))
        else
          let children ← content
          let stop ← close (some text)
          pure (.node .plain ⟨start, stop⟩ (name :: generic ++ given ++ children))

def markup (grammar : Grammar) : Parse Form := do
  elementWithin grammar (← read).steps false

end ActionAtlas.TypeScript
