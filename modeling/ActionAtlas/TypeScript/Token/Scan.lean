import ActionAtlas.TypeScript.Character
import ActionAtlas.TypeScript.Token

/-!
# Reading tokens off a text

Every reader takes the characters that are left and the byte offset of the first of them. Readers that
do not follow the characters one by one are bounded by a number of steps.
-/

namespace ActionAtlas.TypeScript

structure Rest where
  chars : List Char
  offset : Nat

/-! ## Blanks and comments -/

inductive Gap where
  | blank
  | lineComment
  | blockComment

/-- Skip blanks and comments. The flag says whether a line has ended; a comment that does not end is an
error. -/
def skipGap : Gap → List Char → Nat → Bool → Option (Rest × Bool)
  | .blank, '/' :: '/' :: rest, offset, broken => skipGap .lineComment rest (offset + 2) broken
  | .blank, '/' :: '*' :: rest, offset, broken => skipGap .blockComment rest (offset + 2) broken
  | .blank, c :: rest, offset, broken =>
      if isLineEnd c then skipGap .blank rest (offset + c.utf8Size) true
      else if isSpace c then skipGap .blank rest (offset + c.utf8Size) broken
      else some (⟨c :: rest, offset⟩, broken)
  | .lineComment, c :: rest, offset, broken =>
      if isLineEnd c then skipGap .blank rest (offset + c.utf8Size) true
      else skipGap .lineComment rest (offset + c.utf8Size) broken
  | .blockComment, '*' :: '/' :: rest, offset, broken => skipGap .blank rest (offset + 2) broken
  | .blockComment, c :: rest, offset, broken =>
      skipGap .blockComment rest (offset + c.utf8Size) (broken || isLineEnd c)
  | .blockComment, [], _, _ => none
  | _, [], offset, broken => some (⟨[], offset⟩, broken)

/-! ## Escapes -/

def hexDigits : Nat → Nat → List Char → Option (Nat × List Char)
  | 0, value, rest => some (value, rest)
  | _ + 1, _, [] => none
  | count + 1, value, c :: rest => (hexValue? c).bind fun d => hexDigits count (value * 16 + d) rest

/-- Read hexadecimal digits up to a closing brace. The value may not leave the range of code points. -/
def hexUntilBrace : Nat → Nat → List Char → Option (Nat × List Char × Nat)
  | _, _, [] => none
  | value, used, '\x7d' :: rest => if used = 0 then none else some (value, rest, used + 1)
  | value, used, c :: rest =>
      match hexValue? c with
      | some d => if value * 16 + d > 0x10FFFF then none else hexUntilBrace (value * 16 + d) (used + 1) rest
      | none => none

/-- Read what follows the letter of a Unicode escape: its value, the rest and the number of bytes. -/
def unicodeEscape : List Char → Option (Nat × List Char × Nat)
  | '\x7b' :: rest => (hexUntilBrace 0 0 rest).map fun (value, rest, used) => (value, rest, used + 1)
  | rest => (hexDigits 4 0 rest).map fun (value, rest) => (value, rest, 4)

/-- A part of a text literal: a character, or half of a surrogate pair. -/
inductive Piece where
  | char (c : Char)
  | half (unit : Nat)

def isHighHalf (unit : Nat) : Bool := 0xD800 ≤ unit && unit < 0xDC00

def isLowHalf (unit : Nat) : Bool := 0xDC00 ≤ unit && unit < 0xE000

/-- Add a code unit or a code point to the pieces, the latest first. Two halves make a character. -/
def addUnit (unit : Nat) (pieces : List Piece) : List Piece :=
  match pieces with
  | .half high :: before =>
      if isHighHalf high && isLowHalf unit then
        .char (Char.ofNat (0x10000 + (high - 0xD800) * 0x400 + (unit - 0xDC00))) :: before
      else if isHighHalf unit || isLowHalf unit then .half unit :: pieces
      else .char (Char.ofNat unit) :: pieces
  | _ =>
      if isHighHalf unit || isLowHalf unit then .half unit :: pieces
      else .char (Char.ofNat unit) :: pieces

def hexQuad (unit : Nat) : List Char :=
  let digits := Nat.toDigits 16 unit
  List.replicate (4 - digits.length) '0' ++ digits

/-- The text that the pieces stand for. Where a half is left alone, halves and replacement characters
are both written as a replacement character followed by the number of the unit. -/
def piecesText (pieces : List Piece) : String :=
  let mark := Char.ofNat 0xFFFD
  let alone := pieces.any fun | .half _ => true | .char _ => false
  String.ofList (pieces.flatMap fun
    | .char c => if alone && c == mark then mark :: hexQuad 0xFFFD else [c]
    | .half unit => mark :: hexQuad unit)

def octalEscape : Nat → Nat → Nat → List Char → Nat × List Char × Nat
  | 0, value, used, rest => (value, rest, used)
  | _, value, used, [] => (value, [], used)
  | count + 1, value, used, c :: rest =>
      let d := c.toNat - '0'.toNat
      if '0' ≤ c ∧ c ≤ '7' ∧ value * 8 + d < 256 then octalEscape count (value * 8 + d) (used + 1) rest
      else (value, c :: rest, used)

def textEscape (pieces : List Piece) : List Char → Option (List Piece × List Char × Nat)
  | [] => none
  | 'n' :: rest => some (.char '\n' :: pieces, rest, 1)
  | 't' :: rest => some (.char '\t' :: pieces, rest, 1)
  | 'r' :: rest => some (.char '\r' :: pieces, rest, 1)
  | 'b' :: rest => some (.char '\x08' :: pieces, rest, 1)
  | 'v' :: rest => some (.char '\x0b' :: pieces, rest, 1)
  | 'f' :: rest => some (.char '\x0c' :: pieces, rest, 1)
  | 'x' :: rest =>
      (hexDigits 2 0 rest).map fun (value, rest) => (.char (Char.ofNat value) :: pieces, rest, 3)
  | 'u' :: rest =>
      (unicodeEscape rest).map fun (value, rest, used) => (addUnit value pieces, rest, used + 1)
  | '\r' :: '\n' :: rest => some (pieces, rest, 2)
  | c :: rest =>
      if isLineEnd c then some (pieces, rest, c.utf8Size)
      else if '0' ≤ c ∧ c ≤ '7' then
        let (value, rest, used) := octalEscape 2 (c.toNat - '0'.toNat) 1 rest
        some (.char (Char.ofNat value) :: pieces, rest, used)
      else some (.char c :: pieces, rest, c.utf8Size)

/-! ## Literals and words -/

def scanText (quote : Char) : Nat → List Char → Nat → List Piece → Option (List Piece × Rest)
  | 0, _, _, _ => none
  | _, [], _, _ => none
  | steps + 1, c :: rest, offset, pieces =>
      if c == quote then some (pieces.reverse, ⟨rest, offset + 1⟩)
      else if c == '\\' then
        (textEscape pieces rest).bind fun (pieces, rest, used) =>
          scanText quote steps rest (offset + 1 + used) pieces
      else if c == '\n' || c == '\r' then none
      else scanText quote steps rest (offset + c.utf8Size) (.char c :: pieces)

def isTemplateEscape : List Char → Bool
  | 'x' :: rest => (hexDigits 2 0 rest).isSome
  | 'u' :: rest => (unicodeEscape rest).isSome
  | '0' :: c :: _ => !('0' ≤ c && c ≤ '9')
  | c :: _ => !('1' ≤ c && c ≤ '9')
  | [] => false

/-- Read a template up to its end or its next substitution: whether it ends there, and whether all of
its escapes stand for characters, given that those before did. -/
def scanTemplate : Bool → List Char → Nat → Option ((Bool × Bool) × Rest)
  | _, [], _ => none
  | sound, '\x60' :: rest, offset => some ((true, sound), ⟨rest, offset + 1⟩)
  | sound, '$' :: '\x7b' :: rest, offset => some ((false, sound), ⟨rest, offset + 2⟩)
  | sound, '\\' :: c :: rest, offset =>
      scanTemplate (sound && isTemplateEscape (c :: rest)) rest (offset + 1 + c.utf8Size)
  | sound, c :: rest, offset => scanTemplate sound rest (offset + c.utf8Size)

def scanPatternBody : Bool → List Char → Nat → Option Rest
  | _, [], _ => none
  | inSet, '\\' :: c :: rest, offset =>
      if isLineEnd c then none else scanPatternBody inSet rest (offset + 1 + c.utf8Size)
  | inSet, c :: rest, offset =>
      if isLineEnd c then none
      else if c == '/' && !inSet then some ⟨rest, offset + 1⟩
      else scanPatternBody (if c == '[' then true else if c == ']' then false else inSet) rest
        (offset + c.utf8Size)

def scanFlags : List Char → List Char → Nat → Option Rest
  | _, [], offset => some ⟨[], offset⟩
  | seen, c :: rest, offset =>
      if isNamePart c then
        if ['d', 'g', 'i', 'm', 's', 'u', 'v', 'y'].contains c && !seen.contains c then
          scanFlags (c :: seen) rest (offset + 1)
        else none
      else if c == '\\' then none
      else some ⟨c :: rest, offset⟩

def scanPattern (chars : List Char) (offset : Nat) : Option Rest :=
  (scanPatternBody false chars offset).bind fun rest => scanFlags [] rest.chars rest.offset

/-- Read digits with single separators between them. The flag says whether the last character was a
digit; the count, how many there were. -/
def scanDigits (isDigit : Char → Bool) : Bool → Nat → List Char → Option (Nat × List Char × Nat)
  | after, count, c :: rest =>
      if isDigit c then
        (scanDigits isDigit true (count + 1) rest).map fun (n, r, used) => (n, r, used + 1)
      else if c == '_' then
        if after then (scanDigits isDigit false count rest).map fun (n, r, used) => (n, r, used + 1)
        else none
      else if after || count = 0 then some (count, c :: rest, 0)
      else none
  | after, count, [] => if after || count = 0 then some (count, [], 0) else none

def isRadixMark (c : Char) : Option (Char → Bool) :=
  if c == 'x' || c == 'X' then some fun d => (hexValue? d).isSome
  else if c == 'b' || c == 'B' then some fun d => d == '0' || d == '1'
  else if c == 'o' || c == 'O' then some fun d => '0' ≤ d && d ≤ '7'
  else none

def scanExponent (rest : Rest) : Option Rest :=
  match rest.chars with
  | e :: after =>
      if e == 'e' || e == 'E' then
        let (after, sign) := match after with
          | '+' :: r => (r, 1)
          | '-' :: r => (r, 1)
          | r => (r, 0)
        match scanDigits Char.isDigit false 0 after with
        | some (count, r, used) => if count = 0 then none else some ⟨r, rest.offset + 1 + sign + used⟩
        | none => none
      else some rest
  | [] => some rest

def scanFraction (rest : Rest) : Option Rest :=
  match rest.chars with
  | '.' :: after =>
      match after with
      | '_' :: _ => none
      | _ =>
          (scanDigits Char.isDigit false 0 after).bind fun (_, r, used) =>
            scanExponent ⟨r, rest.offset + 1 + used⟩
  | _ => scanExponent rest

def scanNumber (chars : List Char) (offset : Nat) : Option Rest :=
  let plain : Option Rest :=
    match chars with
    | '.' :: _ => scanFraction ⟨chars, offset⟩
    | _ =>
        (scanDigits Char.isDigit false 0 chars).bind fun (_, r, used) =>
          match r with
          | 'n' :: after => some ⟨after, offset + used + 1⟩
          | _ => scanFraction ⟨r, offset + used⟩
  let read : Option Rest :=
    match chars with
    | '0' :: m :: after =>
        match isRadixMark m with
        | some isDigit =>
            match scanDigits isDigit false 0 after with
            | some (count, r, used) =>
                if count = 0 then none
                else match r with
                  | 'n' :: r => some ⟨r, offset + used + 3⟩
                  | _ => some ⟨r, offset + used + 2⟩
            | none => none
        | none => plain
    | _ => plain
  read.bind fun rest =>
    match rest.chars with
    | c :: _ => if isNameStart c || c.isDigit || c == '\\' then none else some rest
    | [] => some rest

/-- Read a name, escapes included; `begun` says whether its first character has been read. -/
def scanName : Nat → Bool → List Char → Nat → List Char → Bool → Option (List Char × Bool × Rest)
  | 0, _, _, _, _, _ => none
  | _, begun, [], offset, name, escaped => if begun then some (name.reverse, escaped, ⟨[], offset⟩) else none
  | steps + 1, begun, c :: rest, offset, name, escaped =>
      let fits (d : Char) : Bool := if begun then isNamePart d else isNameStart d
      if fits c then scanName steps true rest (offset + c.utf8Size) (c :: name) escaped
      else if c == '\\' then
        match rest with
        | 'u' :: after =>
            (unicodeEscape after).bind fun (value, rest, used) =>
              if fits (Char.ofNat value) then
                scanName steps true rest (offset + 2 + used) (Char.ofNat value :: name) true
              else none
        | _ => none
      else if begun then some (name.reverse, escaped, ⟨c :: rest, offset⟩)
      else none

/-! ## Punctuation -/

/-- Read punctuation: the token, the rest and the number of bytes. A closing angle bracket is always
read alone; where it begins a longer operator is for the grammar to say. -/
def scanMark : List Char → Option (Token × List Char × Nat)
  | '\x7b' :: r => some (.mark .braceOpen, r, 1)
  | '\x7d' :: r => some (.mark .braceClose, r, 1)
  | '(' :: r => some (.mark .parenOpen, r, 1)
  | ')' :: r => some (.mark .parenClose, r, 1)
  | '[' :: r => some (.mark .bracketOpen, r, 1)
  | ']' :: r => some (.mark .bracketClose, r, 1)
  | ';' :: r => some (.mark .semicolon, r, 1)
  | ',' :: r => some (.mark .comma, r, 1)
  | '~' :: r => some (.mark .tilde, r, 1)
  | ':' :: r => some (.mark .colon, r, 1)
  | '@' :: r => some (.mark .at, r, 1)
  | '.' :: '.' :: '.' :: r => some (.mark .ellipsis, r, 3)
  | '.' :: r => some (.mark .dot, r, 1)
  | '?' :: '?' :: '=' :: r => some (.update, r, 3)
  | '?' :: '?' :: r => some (.operator .coalesce, r, 2)
  | '?' :: '.' :: r =>
      match r with
      | d :: _ => if d.isDigit then some (.mark .question, '.' :: r, 1) else some (.mark .questionDot, r, 2)
      | [] => some (.mark .questionDot, r, 2)
  | '?' :: r => some (.mark .question, r, 1)
  | '=' :: '=' :: '=' :: r => some (.operator .equality, r, 3)
  | '=' :: '=' :: r => some (.operator .equality, r, 2)
  | '=' :: '>' :: r => some (.mark .arrow, r, 2)
  | '=' :: r => some (.mark .equals, r, 1)
  | '!' :: '=' :: '=' :: r => some (.operator .equality, r, 3)
  | '!' :: '=' :: r => some (.operator .equality, r, 2)
  | '!' :: r => some (.mark .bang, r, 1)
  | '+' :: '+' :: r => some (.mark .plusPlus, r, 2)
  | '+' :: '=' :: r => some (.update, r, 2)
  | '+' :: r => some (.mark .plus, r, 1)
  | '-' :: '-' :: r => some (.mark .minusMinus, r, 2)
  | '-' :: '=' :: r => some (.update, r, 2)
  | '-' :: r => some (.mark .minus, r, 1)
  | '*' :: '*' :: '=' :: r => some (.update, r, 3)
  | '*' :: '*' :: r => some (.operator .power, r, 2)
  | '*' :: '=' :: r => some (.update, r, 2)
  | '*' :: r => some (.mark .star, r, 1)
  | '/' :: '=' :: r => some (.mark .slashEquals, r, 2)
  | '/' :: r => some (.mark .slash, r, 1)
  | '%' :: '=' :: r => some (.update, r, 2)
  | '%' :: r => some (.operator .product, r, 1)
  | '<' :: '<' :: '=' :: r => some (.update, r, 3)
  | '<' :: '<' :: r => some (.mark .shiftLeft, r, 2)
  | '<' :: '=' :: r => some (.operator .relation, r, 2)
  | '<' :: r => some (.mark .less, r, 1)
  | '>' :: r => some (.mark .greater, r, 1)
  | '&' :: '&' :: '=' :: r => some (.update, r, 3)
  | '&' :: '&' :: r => some (.operator .conjunction, r, 2)
  | '&' :: '=' :: r => some (.update, r, 2)
  | '&' :: r => some (.mark .ampersand, r, 1)
  | '|' :: '|' :: '=' :: r => some (.update, r, 3)
  | '|' :: '|' :: r => some (.operator .disjunction, r, 2)
  | '|' :: '=' :: r => some (.update, r, 2)
  | '|' :: r => some (.mark .pipe, r, 1)
  | '^' :: '=' :: r => some (.update, r, 2)
  | '^' :: r => some (.operator .bitXor, r, 1)
  | _ => none

/-- The longer operator that a closing angle bracket begins: the token, the rest and the bytes beyond
the bracket. -/
def afterGreater : List Char → Token × List Char × Nat
  | '>' :: '>' :: '=' :: r => (.update, r, 3)
  | '>' :: '>' :: r => (.operator .shift, r, 2)
  | '>' :: '=' :: r => (.update, r, 2)
  | '>' :: r => (.operator .shift, r, 1)
  | '=' :: r => (.operator .relation, r, 1)
  | r => (.operator .relation, r, 0)

/-! ## Tokens -/

def scanToken (steps : Nat) (chars : List Char) (offset : Nat) : Option (Token × Rest) :=
  match chars with
  | [] => some (.finish, ⟨[], offset⟩)
  | '"' :: rest =>
      (scanText '"' steps rest (offset + 1) []).map fun (pieces, rest) => (.text (piecesText pieces), rest)
  | '\'' :: rest =>
      (scanText '\'' steps rest (offset + 1) []).map fun (pieces, rest) => (.text (piecesText pieces), rest)
  | '\x60' :: rest =>
      (scanTemplate true rest (offset + 1)).map fun ((last, sound), rest) => (.template last sound, rest)
  | '#' :: rest =>
      (scanName steps false rest (offset + 1) [] false).map fun (name, _, rest) =>
        (.privateName (String.ofList name), rest)
  | '.' :: d :: _ =>
      if d.isDigit then (scanNumber chars offset).map fun rest => (.number, rest)
      else (scanMark chars).map fun (token, rest, used) => (token, ⟨rest, offset + used⟩)
  | c :: _ =>
      if c.isDigit then (scanNumber chars offset).map fun rest => (.number, rest)
      else if isNameStart c || c == '\\' then
        (scanName steps false chars offset [] false).map fun (name, escaped, rest) =>
          (.word (String.ofList name) escaped, rest)
      else (scanMark chars).map fun (token, rest, used) => (token, ⟨rest, offset + used⟩)

def nextLexeme (steps : Nat) (chars : List Char) (offset : Nat) : Option Lexeme := do
  let (start, broken) ← skipGap .blank chars offset false
  let (token, rest) ← scanToken steps start.chars start.offset
  pure { token, span := ⟨start.offset, rest.offset⟩, broken, rest := rest.chars }

end ActionAtlas.TypeScript
