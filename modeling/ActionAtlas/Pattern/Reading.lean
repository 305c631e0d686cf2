import ActionAtlas.Pattern.Size

/-!
# Reading patterns

The written form of patterns: alternatives between bars, repetitions behind what they repeat, groups,
sets in brackets, escapes and flags. Neither look-around nor references back to a group exist.
-/

namespace ActionAtlas.Pattern

structure Flags where
  ignoreCase : Bool := false
  multiline : Bool := false
  dotMatchesAll : Bool := false
  swapGreed : Bool := false
  unicode : Bool := true
  crlf : Bool := false
  verbose : Bool := false

/-- What is left to read, the flags in force and the names given to groups so far. -/
structure Reader where
  rest : List Char
  flags : Flags := {}
  names : List String := []

abbrev Read := StateT Reader Option

namespace Read

def flags : Read Flags := return (← get).flags

def rest : Read (List Char) := return (← get).rest

def setRest (chars : List Char) : Read Unit := modify fun reader => { reader with rest := chars }

def setFlags (flags : Flags) : Read Unit := modify fun reader => { reader with flags := flags }

def next : Read Char := do
  match ← rest with
  | c :: after =>
      setRest after
      pure c
  | [] => failure

def eat (c : Char) : Read Bool := do
  match ← rest with
  | d :: after =>
      if c = d then
        setRest after
        pure true
      else pure false
  | [] => pure false

def expect (c : Char) : Read Unit := do
  unless ← eat c do failure

end Read

open Read

/-! ## Blanks and comments in verbose patterns -/

def skipBlank : Bool → List Char → List Char
  | _, [] => []
  | true, c :: rest => skipBlank (c != '\n') rest
  | false, c :: rest =>
      if c == '#' then skipBlank true rest else if isBlank c then skipBlank false rest else c :: rest

def skipIgnored : Read Unit := do
  if (← flags).verbose then setRest (skipBlank false (← rest))

/-- What comes second, blanks apart in a verbose pattern. -/
def peekSecond : Read (Option Char) := do
  let after := (← rest).tail
  return (if (← flags).verbose then skipBlank false after else after).head?

/-! ## Escapes -/

inductive Escape where
  | char (point : Nat)
  | set (members : CharSet)
  | look (condition : Look)

def hexDigit? (c : Char) : Option Nat :=
  if '0' ≤ c ∧ c ≤ '9' then some (c.toNat - '0'.toNat)
  else if 'a' ≤ c ∧ c ≤ 'f' then some (c.toNat - 'a'.toNat + 10)
  else if 'A' ≤ c ∧ c ≤ 'F' then some (c.toNat - 'A'.toNat + 10)
  else none

def hexValue? (digits : List Char) : Option Nat :=
  if digits.isEmpty then none
  else digits.foldlM (fun value c => (hexDigit? c).map (value * 16 + ·)) 0

/-- A code point written in hexadecimal digits: so many as its letter says, or any number in braces. -/
def hexEscape (count : Nat) : Read Nat := do
  let chars ← rest
  let value ← match chars with
    | '\x7b' :: after =>
        let digits := after.takeWhile (· != '\x7d')
        setRest (after.dropWhile (· != '\x7d'))
        expect '\x7d'
        match hexValue? digits with
        | some value => pure value
        | none => failure
    | _ =>
        if chars.length < count then failure
        setRest (chars.drop count)
        match hexValue? (chars.take count) with
        | some value => pure value
        | none => failure
  if value < 0xD800 || (0xDFFF < value && value < 0x110000) then pure value else failure

def namedSet? (name : List Char) : Option CharSet :=
  let split := fun (c : Char) => c == '=' || c == ':'
  match name.span (fun c => !split c) with
  | (all, []) => CharSet.ofName? (CharSet.plainName all)
  | (before, mark :: value) =>
      if mark == '=' && before.getLast? == some '!' then
        (CharSet.ofNameValue? (CharSet.plainName before.dropLast) (CharSet.plainName value)).map .complement
      else CharSet.ofNameValue? (CharSet.plainName before) (CharSet.plainName value)

def foldIf (ignoreCase : Bool) (members : CharSet) : CharSet :=
  if ignoreCase then .folded members else members

/-- A set named by a property; a capital letter or a caret means all other characters. -/
def propertySet (negated : Bool) : Read CharSet := do
  let inForce ← flags
  unless inForce.unicode do failure
  let (name, inner) ← do
    if ← eat '\x7b' then
      let chars ← rest
      let name := chars.takeWhile (· != '\x7d')
      setRest (chars.dropWhile (· != '\x7d'))
      expect '\x7d'
      match name with
      | '^' :: name => pure (name, true)
      | _ => pure (name, false)
    else pure ([← next], false)
  match namedSet? name with
  | some members =>
      let members := foldIf inForce.ignoreCase members
      pure (if negated != inner then .complement members else members)
  | none => failure

def letterSet (wide : Bool) : Char → CharSet
  | 'd' => if wide then .digit else .asciiDigit
  | 's' => if wide then .blank else .asciiBlank
  | _ => if wide then .word else .asciiWord

/-- A set by its letter; a capital letter means all other characters, which must all be text. -/
def letterEscape (c : Char) : Read CharSet := do
  let wide := (← flags).unicode
  if c.isLower then pure (letterSet wide c)
  else if wide then pure (.complement (letterSet wide c.toLower))
  else failure

/-- Edges of words: both kinds, or one kind named in braces. -/
def edgeEscape : Read Look := do
  let wide := (← flags).unicode
  match ← rest with
  | '\x7b' :: after =>
      match after with
      | c :: _ =>
          if c.isAlpha || c == '-' then
            let name := after.takeWhile fun c => c.isAlpha || c == '-'
            setRest (after.dropWhile fun c => c.isAlpha || c == '-')
            expect '\x7d'
            match String.ofList name with
            | "start" => pure (.wordStart wide)
            | "end" => pure (.wordStop wide)
            | "start-half" => pure (.wordStartHalf wide)
            | "end-half" => pure (.wordStopHalf wide)
            | _ => failure
          else pure (.wordEdge wide)
      | [] => failure
  | _ => pure (.wordEdge wide)

def isEscapable (c : Char) : Bool :=
  c.toNat < 128 && !c.isAlphanum && c != '<' && c != '>'

def escape : Read Escape := do
  let inForce ← flags
  let wide := inForce.unicode
  let c ← next
  match c with
  | 'x' => .char <$> hexEscape 2
  | 'u' => .char <$> hexEscape 4
  | 'U' => .char <$> hexEscape 8
  | 'p' => .set <$> propertySet false
  | 'P' => .set <$> propertySet true
  | 'd' | 's' | 'w' | 'D' | 'S' | 'W' => .set <$> letterEscape c
  | 'a' => pure (.char 7)
  | 'f' => pure (.char 12)
  | 't' => pure (.char 9)
  | 'n' => pure (.char 10)
  | 'r' => pure (.char 13)
  | 'v' => pure (.char 11)
  | 'A' => pure (.look .start)
  | 'z' => pure (.look .stop)
  | 'b' => .look <$> edgeEscape
  | 'B' => pure (.look (.noWordEdge wide))
  | '<' => pure (.look (.wordStart wide))
  | '>' => pure (.look (.wordStop wide))
  | _ => if isEscapable c then pure (.char c.toNat) else failure

/-! ## Sets in brackets -/

def bracketName? (chars : List Char) : Option (CharSet × List Char) :=
  match chars with
  | ':' :: after =>
      let (negated, after) := match after with
        | '^' :: after => (true, after)
        | _ => (false, after)
      let name := after.takeWhile (· != ':')
      match after.dropWhile (· != ':') with
      | ':' :: ']' :: left =>
          (CharSet.ofBracketName? (String.ofList name)).map fun members =>
            (if negated then .complement members else members, left)
      | _ => none
  | _ => none

/-- An element of a set: a character or a set behind a backslash, or a character as it stands. A set of
bytes has only ASCII characters. -/
def setElement : Read Escape := do
  let c ← next
  let found ← if c == '\\' then escape else pure (.char c.toNat)
  match found with
  | .look _ => failure
  | .char point => if point < 128 || (← flags).unicode then pure found else failure
  | .set _ => pure found

def setRange : Read CharSet := do
  let first ← setElement
  skipIgnored
  let isRange ← do
    match ← rest with
    | '-' :: _ =>
        let second ← peekSecond
        pure (second != some ']' && second != some '-')
    | [] => failure
    | _ => pure false
  if isRange then
    let _ ← next
    skipIgnored
    match first, ← setElement with
    | .char low, .char high => if low ≤ high then pure (.range low high) else failure
    | _, _ => failure
  else
    match first with
    | .char point => pure (.range point point)
    | .set members => pure members
    | .look _ => failure

inductive SetOperator where
  | meet
  | difference
  | symmetricDifference

def SetOperator.apply : SetOperator → CharSet → CharSet → CharSet
  | .meet, left, right => .meet left right
  | .difference, left, right => left.difference right
  | .symmetricDifference, left, right => left.symmetricDifference right

def setOperator? : List Char → Option (SetOperator × List Char)
  | '&' :: '&' :: rest => some (.meet, rest)
  | '-' :: '-' :: rest => some (.difference, rest)
  | '~' :: '~' :: rest => some (.symmetricDifference, rest)
  | _ => none

def combine (ignoreCase : Bool) (before : Option (CharSet × SetOperator)) (found : CharSet) : CharSet :=
  match before with
  | some (left, operator) => operator.apply (foldIf ignoreCase left) (foldIf ignoreCase found)
  | none => found

/-- Leading dashes, and a leading closing bracket, stand for themselves. -/
def leadingMembers : Read CharSet := do
  let chars ← rest
  let dashes := chars.takeWhile (· == '-')
  let after := chars.dropWhile (· == '-')
  match dashes, after with
  | [], ']' :: after =>
      setRest after
      pure (.char ']')
  | [], _ => pure .empty
  | _ :: _, _ =>
      setRest after
      pure (.char '-')

mutual

def bracketSet : Nat → Read CharSet
  | 0 => failure
  | steps + 1 => do
      let inForce ← flags
      skipIgnored
      let negated ← eat '^'
      skipIgnored
      let leading ← leadingMembers
      let members ← setMembers steps none leading
      let members := foldIf inForce.ignoreCase members
      if negated then
        if inForce.unicode then pure (.complement members) else failure
      else pure members

def setMembers : Nat → Option (CharSet × SetOperator) → CharSet → Read CharSet
  | 0, _, _ => failure
  | steps + 1, before, found => do
      let ignoreCase := (← flags).ignoreCase
      skipIgnored
      let chars ← rest
      match setOperator? chars with
      | some (operator, after) =>
          setRest after
          setMembers steps (some (combine ignoreCase before found, operator)) .empty
      | none =>
          match chars with
          | [] => failure
          | ']' :: after =>
              setRest after
              pure (combine ignoreCase before found)
          | '[' :: after =>
              match bracketName? after with
              | some (members, left) =>
                  if after.take 2 == [':', '^'] && !(← flags).unicode then failure
                  setRest left
                  setMembers steps before (.union found members)
              | none =>
                  setRest after
                  let inner ← bracketSet steps
                  setMembers steps before (.union found inner)
          | _ =>
              let members ← setRange
              setMembers steps before (.union found members)

end

/-! ## Repetitions -/

def decimal : Read Nat := do
  let chars := (← rest).dropWhile isBlank
  let digits := chars.takeWhile Char.isDigit
  setRest ((chars.dropWhile Char.isDigit).dropWhile isBlank)
  if digits.isEmpty then failure
  let value := digits.foldl (fun n c => n * 10 + (c.toNat - '0'.toNat)) 0
  if value < 0x100000000 then pure value else failure

def counts : Read (Nat × Option Nat) := do
  skipIgnored
  let least ← decimal
  let most ← do
    if ← eat ',' then
      skipIgnored
      if (← rest).head? == some '\x7d' then pure none else some <$> decimal
    else pure (some least)
  expect '\x7d'
  match most with
  | some most => if least ≤ most then pure (least, some most) else failure
  | none => pure (least, none)

/-- The repetition of the last thing read. What has been read is listed latest first; a setting of
flags cannot be repeated. -/
def repeated (least : Nat) (most : Option Nat) : List (Option Expr) → Read (List (Option Expr))
  | some last :: before => do
      let lazy ← eat '?'
      let greedy := lazy == (← flags).swapGreed
      pure (some (.loop least most greedy last) :: before)
  | _ => failure

/-! ## Flags -/

def setFlag (on : Bool) (c : Char) (inForce : Flags) : Option Flags :=
  match c with
  | 'i' => some { inForce with ignoreCase := on }
  | 'm' => some { inForce with multiline := on }
  | 's' => some { inForce with dotMatchesAll := on }
  | 'U' => some { inForce with swapGreed := on }
  | 'u' => some { inForce with unicode := on }
  | 'R' => some { inForce with crlf := on }
  | 'x' => some { inForce with verbose := on }
  | _ => none

/-- Flags up to a colon or a closing parenthesis, each at most once; behind a dash they are cleared.
The result says whether there were any and which character ended them. -/
def readFlags : List Char → Bool → List Char → Flags → Option (Flags × Bool × Char × List Char)
  | [], _, _, _ => none
  | c :: after, cleared, seen, inForce =>
      if c == ':' || c == ')' then
        if seen.head? == some '-' then none else some (inForce, !seen.isEmpty, c, after)
      else if seen.contains c then none
      else if c == '-' then readFlags after true ('-' :: seen) inForce
      else
        match setFlag (!cleared) c inForce with
        | some changed => readFlags after cleared (c :: seen) changed
        | none => none

/-! ## Sequences, alternatives and groups -/

def isGroupChar (first : Bool) (c : Char) : Bool :=
  c == '_' || (!first && (c == '.' || c == '[' || c == ']')) ||
    (if first then CharSet.alphabetic.holds c.toNat
      else CharSet.alphabetic.holds c.toNat ||
        (CharSet.categories [.decimalDigit, .letterNumber, .otherNumber]).holds c.toNat)

def groupName : Read Unit := do
  let chars ← rest
  let name := chars.takeWhile (· != '>')
  setRest (chars.dropWhile (· != '>'))
  expect '>'
  let reader ← get
  match name with
  | [] => failure
  | c :: more =>
      let text := String.ofList name
      if isGroupChar true c && more.all (isGroupChar false) && !reader.names.contains text then
        set { reader with names := text :: reader.names }
      else failure

def literal (point : Nat) : Read Expr := do
  let inForce ← flags
  pure (.set (foldIf inForce.ignoreCase (.range point point)))

def anyChar : Read Expr := do
  let inForce ← flags
  unless inForce.unicode do failure
  pure (.set (
    if inForce.dotMatchesAll then .all
    else if inForce.crlf then .complement (.table [(10, 10), (13, 13)])
    else .complement (.range 10 10)))

def startLook : Read Expr := do
  let inForce ← flags
  pure (.look (if !inForce.multiline then .start else if inForce.crlf then .eitherLineStart else .lineStart))

def stopLook : Read Expr := do
  let inForce ← flags
  pure (.look (if !inForce.multiline then .stop else if inForce.crlf then .eitherLineStop else .lineStop))

def Expr.ofParts : List Expr → Expr
  | [] => .empty
  | [part] => part
  | parts => .sequence parts

/-- An escape as a pattern; in a pattern of bytes, a code point beyond 127 is no text. -/
def escaped : Read Expr := do
  let written ← rest
  match ← escape with
  | .char point =>
      let isHex := match written with
        | 'x' :: _ | 'u' :: _ | 'U' :: _ => true
        | _ => false
      if isHex && point ≥ 128 && point < 256 && !(← flags).unicode then failure
      literal point
  | .set members => pure (.set members)
  | .look condition => pure (.look condition)

def looksAround : List Char → Bool
  | '?' :: '=' :: _ | '?' :: '!' :: _ | '?' :: '<' :: '=' :: _ | '?' :: '<' :: '!' :: _ => true
  | _ => false

mutual

def alternatives : Nat → List Expr → Read Expr
  | 0, _ => failure
  | steps + 1, done => do
      let items ← sequenceItems steps []
      let found := Expr.ofParts (items.reverse.filterMap (fun item => item))
      if ← eat '|' then alternatives steps (found :: done)
      else
        match done with
        | [] => pure found
        | _ => pure (.choice (found :: done).reverse)

/-- What stands in a row, latest first; a setting of flags leaves no pattern. -/
def sequenceItems : Nat → List (Option Expr) → Read (List (Option Expr))
  | 0, _ => failure
  | steps + 1, items => do
      skipIgnored
      match ← rest with
      | [] | '|' :: _ | ')' :: _ => pure items
      | c :: after =>
          setRest after
          match c with
          | '(' =>
              let found ← group steps
              sequenceItems steps (found :: items)
          | '[' =>
              let members ← bracketSet steps
              sequenceItems steps (some (.set members) :: items)
          | '*' => sequenceItems steps (← repeated 0 none items)
          | '+' => sequenceItems steps (← repeated 1 none items)
          | '?' => sequenceItems steps (← repeated 0 (some 1) items)
          | '\x7b' =>
              match items with
              | some _ :: _ =>
                  let (least, most) ← counts
                  sequenceItems steps (← repeated least most items)
              | _ => failure
          | '\\' => sequenceItems steps (some (← escaped) :: items)
          | '.' => sequenceItems steps (some (← anyChar) :: items)
          | '^' => sequenceItems steps (some (← startLook) :: items)
          | '$' => sequenceItems steps (some (← stopLook) :: items)
          | _ => sequenceItems steps (some (← literal c.toNat) :: items)

def group : Nat → Read (Option Expr)
  | 0 => failure
  | steps + 1 => do
      skipIgnored
      let inForce ← flags
      let close (captures : Bool) : Read (Option Expr) := do
        let inner ← alternatives steps []
        expect ')'
        setFlags inForce
        pure (some (.group captures inner))
      let chars ← rest
      if looksAround chars then failure
      else
        match chars with
        | '?' :: 'P' :: '<' :: after =>
            setRest after
            groupName
            close true
        | '?' :: '<' :: after =>
            setRest after
            groupName
            close true
        | '?' :: after =>
            match readFlags after false [] inForce with
            | some (changed, given, mark, left) =>
                setRest left
                setFlags changed
                if mark == ':' then close false
                else if given then pure none
                else failure
            | none => failure
        | _ => close true

end

/-- The pattern of a written form; none when the form is not one of a pattern, or is nested too deep or
stands for too large a program. -/
def Expr.ofText? (text : String) : Option Expr := do
  let chars := text.toList
  let (found, reader) ← (alternatives (4 * chars.length + 8) []).run { rest := chars }
  if reader.rest.isEmpty ∧ found.depth ≤ depthLimit ∧ found.fits then some found else none

end ActionAtlas.Pattern
