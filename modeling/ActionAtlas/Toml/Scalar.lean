import ActionAtlas.Json.Scanned
import ActionAtlas.Text.Reader

/-!
# TOML scalars

Texts in four kinds of quotes, and the words that stand without quotes: booleans, numbers and moments in
time.
-/

namespace ActionAtlas.Toml

open Json Reader

/-! ## Texts -/

def isPlain (c : Char) : Bool := c = '\t' || (' ' ≤ c && c ≠ '\x7f')

def isSpace (c : Char) : Bool := c = ' ' || c = '\t'

def lineEnd? : Reader Bool := do
  match ← get with
  | '\n' :: rest | '\r' :: '\n' :: rest =>
      set rest
      return true
  | _ => return false

def escape : Reader Char := do
  match ← next with
  | 'b' => return '\x08'
  | 't' => return '\t'
  | 'n' => return '\n'
  | 'f' => return '\x0c'
  | 'r' => return '\r'
  | '"' => return '"'
  | '\\' => return '\\'
  | 'u' => ofCodePoint (← hexNumber Scanned.hexValue? 4 0)
  | 'U' => ofCodePoint (← hexNumber Scanned.hexValue? 8 0)
  | _ => failure

/-- The rest of a text in one line, after its opening quote. Only a double quote knows escapes. -/
def lineText (quote : Char) : Nat → Reader (List Char)
  | 0 => failure
  | steps + 1 => do
      let c ← next
      if c = quote then return []
      else if c = '\\' ∧ quote = '"' then
        let escaped ← escape
        return escaped :: (← lineText quote steps)
      else if isPlain c then return c :: (← lineText quote steps)
      else failure

def skipGap (steps : Nat) : Reader Unit := do
  match steps with
  | 0 => return ()
  | steps + 1 =>
      skipWhile isSpace
      if ← lineEnd? then skipGap steps else return ()

/-- The rest of a text of several lines, after its three opening quotes. It ends at three quotes, and up
to two quotes right before these belong to it. A backslash at the end of a line joins the lines. -/
def longText (quote : Char) : Nat → Reader (List Char)
  | 0 => failure
  | steps + 1 => do
      let quotes ← takeWhile (· = quote)
      if 3 ≤ quotes.length then
        if quotes.length ≤ 5 then return quotes.drop 3 else failure
      else if !quotes.isEmpty then return quotes ++ (← longText quote steps)
      else if ← lineEnd? then return '\n' :: (← longText quote steps)
      else
        let c ← next
        if c = '\\' ∧ quote = '"' then
          let text ← get
          skipWhile isSpace
          if ← lineEnd? then
            skipGap (← Reader.steps)
            longText quote steps
          else
            set text
            let escaped ← escape
            return escaped :: (← longText quote steps)
        else if isPlain c then return c :: (← longText quote steps)
        else failure

def shortString (quote : Char) : Reader String := do
  expect quote
  return String.ofList (← lineText quote (← steps))

/-- A text in quotes of either length. A line end right after three quotes does not count. -/
def string (quote : Char) : Reader String := do
  match ← get with
  | a :: b :: c :: rest =>
      if a = quote ∧ b = quote ∧ c = quote then
        set rest
        let _ ← lineEnd?
        return String.ofList (← longText quote (← steps))
      else shortString quote
  | _ => shortString quote

/-! ## Numbers -/

/-- The digits of a number, with single underscores between digits left out. -/
def digits? (isDigit : Char → Bool) : List Char → Option (List Char)
  | [] => none
  | [c] => if isDigit c then some [c] else none
  | c :: '_' :: rest => if isDigit c then (digits? isDigit rest).map (c :: ·) else none
  | c :: rest => if isDigit c then (digits? isDigit rest).map (c :: ·) else none

def splitSign : List Char → Bool × List Char
  | '-' :: rest => (true, rest)
  | '+' :: rest => (false, rest)
  | text => (false, text)

/-- Decimal digits that do not start with a zero, unless that is all. -/
def wholePart? (text : List Char) : Option (List Char) := do
  let digits ← digits? Scanned.isDigit text
  match digits with
  | '0' :: _ :: _ => none
  | _ => some digits

def numberOf (base : Nat) (digits : List Char) : Nat :=
  digits.foldl (fun number c => number * base + (Scanned.hexValue? c).getD 0) 0

def integer? (negative : Bool) (number : Nat) : Option Value :=
  let value : Int := if negative then -(number : Int) else number
  if -0x8000000000000000 ≤ value ∧ value < 0x8000000000000000 then some (.int value) else none

def basedNumber? (base : Nat) (text : List Char) : Option Value := do
  let isDigit (c : Char) : Bool := (Scanned.hexValue? c).any (· < base)
  integer? false (numberOf base (← digits? isDigit text))

def decimal? (text : List Char) : Option Value := do
  let (negative, rest) := splitSign text
  integer? negative (numberOf 10 (← wholePart? rest))

def float? (text : List Char) : Option Value := do
  let (negative, rest) := splitSign text
  let isExponentMark (c : Char) : Bool := c = 'e' || c = 'E'
  let mantissa := rest.takeWhile (!isExponentMark ·)
  let whole ← wholePart? (mantissa.takeWhile (· ≠ '.'))
  let fraction ←
    match mantissa.dropWhile (· ≠ '.') with
    | [] => pure []
    | _ :: fraction => digits? Scanned.isDigit fraction
  let (negativePower, power) ←
    match rest.dropWhile (!isExponentMark ·) with
    | [] => if fraction.isEmpty then none else pure (false, [])
    | _ :: power => do
        let (negativePower, power) := splitSign power
        pure (negativePower, ← digits? Scanned.isDigit power)
  match Scanned.fractional negative whole fraction negativePower power with
  | .ok number => some (.num number)
  | .error _ => none

def namedNumber? (text : List Char) : Option Value :=
  let (negative, rest) := splitSign text
  let sign : UInt64 := if negative then 0x8000000000000000 else 0
  if rest = "inf".toList then some (.num (.real (sign ||| 0x7FF0000000000000)))
  else if rest = "nan".toList then some (.num (.real (sign ||| 0x7FF8000000000000)))
  else none

/-! ## Moments -/

def field (count least most : Nat) : Reader Unit := do
  let text ← get
  let digits := text.take count
  set (text.drop count)
  let number := numberOf 10 digits
  if digits.length = count ∧ digits.all Scanned.isDigit ∧ least ≤ number ∧ number ≤ most then
    return ()
  else failure

def isLeapYear (year : Nat) : Bool :=
  year % 4 = 0 && (year % 100 ≠ 0 || year % 400 = 0)

def daysIn (year month : Nat) : Nat :=
  if month = 2 then if isLeapYear year then 29 else 28
  else if month ∈ [4, 6, 9, 11] then 30
  else 31

def date : Reader Unit := do
  let text ← get
  field 4 0 9999
  expect '-'
  field 2 1 12
  expect '-'
  field 2 1 (daysIn (numberOf 10 (text.take 4)) (numberOf 10 ((text.drop 5).take 2)))

def time : Reader Unit := do
  field 2 0 23
  expect ':'
  field 2 0 59
  expect ':'
  field 2 0 60
  if ← take? '.' then
    if (← takeWhile Scanned.isDigit).isEmpty then failure

def offset : Reader Unit := do
  match ← next with
  | 'Z' | 'z' => return ()
  | '+' | '-' =>
      field 2 0 23
      expect ':'
      field 2 0 59
  | _ => failure

/-- A day, a time of day, or both. -/
def moment : Reader Unit := do
  match (← get).drop 2 with
  | ':' :: _ => time
  | _ =>
      date
      if ← atEnd then return ()
      match ← next with
      | 'T' | 't' | ' ' =>
          time
          if ← atEnd then return () else offset
      | _ => failure

/-- A moment is no text: it is kept as an object that holds one. -/
def moment? (text : List Char) : Option Value :=
  (whole? moment text).map fun _ => .obj [("moment", .str (String.ofList text))]

/-! ## Words -/

def isWordChar (c : Char) : Bool :=
  c.isAlphanum || c = '+' || c = '-' || c = '_' || c = '.' || c = ':'

def word? (text : List Char) : Option Value :=
  if text = "true".toList then some (.bool true)
  else if text = "false".toList then some (.bool false)
  else
    match text with
    | '0' :: 'x' :: rest => basedNumber? 16 rest
    | '0' :: 'o' :: rest => basedNumber? 8 rest
    | '0' :: 'b' :: rest => basedNumber? 2 rest
    | _ => decimal? text <|> float? text <|> namedNumber? text <|> moment? text

/-- A word. A day may be followed by a blank and the time of day. -/
def word : Reader Value := do
  let first ← takeWhile isWordChar
  let rest ← get
  let text ←
    match rest with
    | ' ' :: c :: _ =>
        if Scanned.isDigit c ∧ (whole? date first).isSome then
          skipWhile (· = ' ')
          pure (first ++ ' ' :: (← takeWhile isWordChar))
        else pure first
    | _ => pure first
  match word? text with
  | some value => return value
  | none => failure

end ActionAtlas.Toml
