import ActionAtlas.Json.Scanned
import ActionAtlas.Text.Affix
import ActionAtlas.Text.Blank
import ActionAtlas.Text.Reader
import ActionAtlas.Text.Segments

/-!
# Settings in the environment

A variable whose name starts with a mark gives a setting. Its text may be a boolean, a number, a quoted
text, a list or a table; what is none of these is a text as it stands.
-/

namespace ActionAtlas.Environment

open Json Reader

/-! ## Texts of variables -/

/-- Blanks among the first characters of the code table. -/
def isSpace (c : Char) : Bool :=
  c = ' ' || c = '\t' || c = '\n' || c = '\r' || c = '\x0c'

def isBracketOrComma (c : Char) : Bool :=
  c = '\x7b' || c = '\x7d' || c = '[' || c = ']' || c = ','

def quotedText : Nat → Reader (List Char)
  | 0 => failure
  | steps + 1 => do
      match ← next with
      | '"' => return []
      | '\\' =>
          let c ← escape
          return c :: (← quotedText steps)
      | c => return c :: (← quotedText steps)
where
  escape : Reader Char := do
    match ← next with
    | '"' => return '"'
    | '\\' => return '\\'
    | 'b' => return '\x08'
    | 'f' => return '\x0c'
    | 'n' => return '\n'
    | 'r' => return '\r'
    | 't' => return '\t'
    | 'u' => ofCodePoint (← hexNumber Scanned.hexValue? 4 0)
    | 'U' => ofCodePoint (← hexNumber Scanned.hexValue? 8 0)
    | _ => failure

def quoted : Reader String := do
  expect '"'
  return String.ofList (← quotedText (← steps))

def quotedChar : Reader String := do
  expect '\''
  let c ← next
  expect '\''
  return String.singleton c

def afterSign : List Char → Bool × List Char
  | '-' :: rest => (true, rest)
  | '+' :: rest => (false, rest)
  | text => (false, text)

def real? (text : List Char) : Option Value :=
  let (negative, rest) := afterSign text
  let whole := rest.takeWhile Scanned.isDigit
  match rest.dropWhile Scanned.isDigit with
  | '.' :: rest =>
      let fraction := rest.takeWhile Scanned.isDigit
      let after := rest.dropWhile Scanned.isDigit
      if whole.isEmpty && fraction.isEmpty then none
      else
        let value (negativePower : Bool) (power : List Char) : Value :=
          match Scanned.fractional negative whole fraction negativePower power with
          | .ok number => .num number
          | .error _ => .num (.real (if negative then 0xFFF0000000000000 else 0x7FF0000000000000))
        match after with
        | [] => some (value false [])
        | 'e' :: power | 'E' :: power =>
            let (negativePower, power) := afterSign power
            if power.isEmpty || !power.all Scanned.isDigit then none
            else some (value negativePower power)
        | _ => none
  | _ => none

/-- A whole number that fits a machine word, with a sign or without. -/
def integer? (text : List Char) : Option Value :=
  let (negative, digits) := afterSign text
  if digits.isEmpty || !digits.all Scanned.isDigit then none
  else
    let number := digits.foldl (fun n c => n * 10 + Scanned.digitValue c) 0
    if negative then if number ≤ 0x8000000000000000 then some (.int (-(number : Int))) else none
    else if number < Scanned.wordLimit then some (.int number)
    else none

def word (text : List Char) : Value :=
  ((if '.' ∈ text then real? text else none) <|> integer? text).getD (.str (String.ofList text))

def takeText? (expected : String) : Reader Bool := do
  match dropStart? expected.toList (← get) with
  | some rest =>
      set rest
      return true
  | none => return false

def name : Reader String := do
  if (← peek?) = some '"' then quoted
  else
    let found ← takeWhile fun c => c.isAlphanum || c = '_' || c = '-'
    if found.isEmpty then failure else return String.ofList found

def items {α : Type} (item : Reader α) (close : Char) : Nat → Reader (List α)
  | 0 => failure
  | steps + 1 => do
      if ← take? close then return []
      let first ← item
      if ← take? ',' then return first :: (← items item close steps)
      expect close
      return [first]

def binding (value : Reader Value) : Reader (String × Value) := do
  skipWhile isSpace
  let found ← name
  skipWhile isSpace
  expect '='
  return (found, ← value)

def valueOver (inner : Reader Value) : Reader Value := do
  skipWhile isSpace
  let found ←
    if ← takeText? "true" then pure (.bool true)
    else if ← takeText? "false" then pure (.bool false)
    else
      match ← peek? with
      | some '\x7b' => do
          expect '\x7b'
          let fields ← items (binding inner) '\x7d' (← steps)
          pure (.obj (fields.foldl (fun all (name, value) => insertField name value all) []))
      | some '[' => do
          expect '['
          pure (.arr (← items inner ']' (← steps)))
      | some '"' => pure (.str (← quoted))
      | some '\'' => pure (.str (← quotedChar))
      | _ => pure (word (trimBlank (← takeWhile fun c => !isBracketOrComma c)))
  skipWhile isSpace
  return found

def value : Nat → Reader Value
  | 0 => valueOver failure
  | depth + 1 => valueOver (value depth)

def valueOf (text : String) : Value :=
  let text := text.toList
  (whole? (value text.length) text).getD (.str (String.ofList text))

/-! ## Names of variables -/

def mark : String := "ngv_"

def lowerCase (text : List Char) : List Char := text.map Char.toLower

/-- The way to a setting that a variable gives: its name without the mark, cut at dots. -/
def settingPath? (key : String) : Option (List String) := do
  let rest ← dropStart? mark.toList (lowerCase (trimBlank key.toList))
  let parts := Segments.split '.' (trimBlank rest)
  if parts.any List.isEmpty then none else some (parts.map String.ofList)

/-- The setting that a variable gives. A way of several steps makes a table within a table. -/
def setting? (key text : String) : Option (String × Value) := do
  match ← settingPath? key with
  | [] => none
  | first :: rest => some (first, rest.foldr (fun name value => .obj [(name, value)]) (valueOf text))

/-- The settings that an environment gives, the later of two with one name. -/
def settings (environment : List (String × String)) : List (String × Value) :=
  (environment.filterMap fun (key, text) => setting? key text).foldl
    (fun all (name, value) => insertField name value all) []

end ActionAtlas.Environment
