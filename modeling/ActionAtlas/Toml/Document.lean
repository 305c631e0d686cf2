import ActionAtlas.Toml.Scalar
import ActionAtlas.Toml.Table

/-!
# TOML documents

A document is a sequence of lines: headers that name a table, keys with their values, comments and
nothing. Lists may run over several lines, tables in braces may not.
-/

namespace ActionAtlas.Toml

open Json Reader

/-- Lists and tables in braces are not nested deeper than this, nor are keys longer. -/
def nestingLimit : Nat := 79

def isBareChar (c : Char) : Bool := c.isAlphanum || c = '_' || c = '-'

def keyPart : Reader String := do
  match ← peek? with
  | some '"' => shortString '"'
  | some '\'' => shortString '\''
  | _ =>
      let name ← takeWhile isBareChar
      if name.isEmpty then failure else return String.ofList name

def keyParts : Nat → Reader (List String)
  | 0 => failure
  | steps + 1 => do
      skipWhile isSpace
      let part ← keyPart
      skipWhile isSpace
      if ← take? '.' then return part :: (← keyParts steps) else return [part]

/-- A key, as the way to its table and its name there. -/
def key : Reader (List String × String) := do
  let parts ← keyParts nestingLimit
  match parts.getLast? with
  | some name => return (parts.dropLast, name)
  | none => failure

def comment : Reader Unit := do
  if ← take? '#' then skipWhile isPlain

def skipLines : Nat → Reader Unit
  | 0 => return ()
  | steps + 1 => do
      skipWhile isSpace
      comment
      if ← lineEnd? then skipLines steps

def listItems (value : Reader Value) : Nat → Reader (List Value)
  | 0 => failure
  | steps + 1 => do
      skipLines (← Reader.steps)
      if ← take? ']' then return []
      let item ← value
      skipLines (← Reader.steps)
      if ← take? ',' then return item :: (← listItems value steps)
      expect ']'
      return [item]

def braceFields (value : Reader Value) : Nat → Fields → Reader Fields
  | 0, _ => failure
  | steps + 1, fields => do
      let (path, name) ← key
      expect '='
      skipWhile isSpace
      let item ← value
      skipWhile isSpace
      match fields.assign path name item with
      | none => failure
      | some fields =>
          if ← take? ',' then
            braceFields value steps fields
          else
            expect '\x7d'
            return fields

def nested (inner : Reader Value) (bracket : Char) : Reader Value := do
  expect bracket
  if bracket = '[' then return .arr (← listItems inner (← steps))
  skipWhile isSpace
  if ← take? '\x7d' then return .obj []
  return .obj (fieldsToJson (← braceFields inner (← steps) []))

def valueOver (inner : Reader Value) : Reader Value := do
  match ← peek? with
  | some '"' => return .str (← string '"')
  | some '\'' => return .str (← string '\'')
  | some '[' => nested inner '['
  | some '\x7b' => nested inner '\x7b'
  | _ => word

def value : Nat → Reader Value
  | 0 => valueOver failure
  | depth + 1 => valueOver (value depth)

def header (fields : Fields) : Reader (List String × Fields) := do
  expect '['
  let isRow ← take? '['
  let (path, name) ← key
  expect ']'
  if isRow then expect ']'
  match if isRow then fields.addRow path name else fields.declare path name with
  | some fields => return (path ++ [name], fields)
  | none => failure

/-- A key and its value, put below the table of the last header. -/
def assignment (current : List String) (fields : Fields) : Reader Fields := do
  let (path, name) ← key
  expect '='
  skipWhile isSpace
  let item ← value nestingLimit
  match fields.assignIn current path name item with
  | some fields => return fields
  | none => failure

def content (current : List String) (fields : Fields) : Reader (List String × Fields) := do
  match ← peek? with
  | some '[' => header fields
  | none | some '#' | some '\n' | some '\r' => return (current, fields)
  | _ => return (current, ← assignment current fields)

def lines : Nat → List String → Fields → Reader Fields
  | 0, _, _ => failure
  | steps + 1, current, fields => do
      skipWhile isSpace
      let (current, fields) ← content current fields
      skipWhile isSpace
      comment
      if ← atEnd then return fields
      if ← lineEnd? then lines steps current fields else failure

/-- The fields of a document. A mark of the byte order may stand before it. -/
def fieldsOfText? (text : String) : Option (List (String × Value)) :=
  let text := match text.toList with
    | '\ufeff' :: rest => rest
    | text => text
  (whole? (do lines (← steps) [] []) text).map fieldsToJson

end ActionAtlas.Toml
