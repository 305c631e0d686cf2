import ActionAtlas.Json.Printer
import ActionAtlas.Json.Scanned
import ActionAtlas.Text.Quoted

/-!
# Typed reading

What a reader of records can find wrong with JSON, how it is put into words, and readers for the plain
types. A record may be written as an object or as the list of its fields in their order.
-/

namespace ActionAtlas
namespace Json

inductive Found where
  | null
  | bool (value : Bool)
  | integer (value : Int)
  | real (bits : UInt64)
  | text (value : String)
  | list
  | object

def Found.words : Found → String
  | .null => "null"
  | .bool value => if value then "boolean `true`" else "boolean `false`"
  | .integer value => "integer `" ++ toString value ++ "`"
  | .real bits => "floating point `" ++ Decimal.text bits ++ "`"
  | .text value => "string " ++ Quoted.quote value
  | .list => "sequence"
  | .object => "map"

inductive Problem where
  | wrongType (found : Found) (wanted : String)
  | wrongValue (found : Found) (wanted : String)
  | wrongLength (length : Nat) (wanted : String)
  | missingField (name : String)
  | repeatedField (name : String)
  | unknownVariant (name : String) (known : List String)
  | noVariant (type : String)

def Problem.message : Problem → String
  | .wrongType found wanted => "invalid type: " ++ found.words ++ ", expected " ++ wanted
  | .wrongValue found wanted => "invalid value: " ++ found.words ++ ", expected " ++ wanted
  | .wrongLength length wanted => "invalid length " ++ toString length ++ ", expected " ++ wanted
  | .missingField name => "missing field `" ++ name ++ "`"
  | .repeatedField name => "duplicate field `" ++ name ++ "`"
  | .unknownVariant name known =>
      "unknown variant `" ++ name ++ "`, expected one of "
        ++ ", ".intercalate (known.map fun variant => "`" ++ variant ++ "`")
  | .noVariant type => "data did not match any variant of untagged enum " ++ type

/-- Why reading stops: the text is not JSON, or the JSON is not what was wanted. -/
inductive ReadError where
  | fault (fault : Fault)
  | problem (problem : Problem)

abbrev Read (α : Type) := Except ReadError α

/-- Where a tree comes from: a text, or a value that was complete before typed reading began. -/
inductive Origin where
  | text
  | value
  deriving DecidableEq

namespace Read

def fault {α : Type} (f : Fault) : Read α := .error (.fault f)

def problem {α : Type} (p : Problem) : Read α := .error (.problem p)

def unless? : Option Fault → Read Unit
  | some f => fault f
  | none => .ok ()

end Read

namespace Scanned

/-- Report that something else was wanted here; a fault comes first. -/
def mismatch {α : Type} (wanted : String) : Scanned → Read α
  | .null => Read.problem (.wrongType .null wanted)
  | .bool value => Read.problem (.wrongType (.bool value) wanted)
  | .number (.ok (.int value)) => Read.problem (.wrongType (.integer value) wanted)
  | .number (.ok (.real bits)) => Read.problem (.wrongType (.real bits) wanted)
  | .number (.error f) => Read.fault f
  | .string (.ok value) => Read.problem (.wrongType (.text value) wanted)
  | .string (.error f) => Read.fault f
  | .array _ _ => Read.problem (.wrongType .list wanted)
  | .object _ _ => Read.problem (.wrongType .object wanted)
  | .broken f => Read.fault f

def readTextAs (wanted : String) : Scanned → Read String
  | .string (.ok value) => .ok value
  | other => other.mismatch wanted

def readText : Scanned → Read String := readTextAs "a string"

def readBool : Scanned → Read Bool
  | .bool value => .ok value
  | other => other.mismatch "a boolean"

def readBelow (limit : Nat) (wanted : String) : Scanned → Read Nat
  | .number (.ok (.int value)) =>
      if 0 ≤ value ∧ value < limit then .ok value.toNat
      else Read.problem (.wrongValue (.integer value) wanted)
  | other => other.mismatch wanted

def readLine (s : Scanned) : Read UInt32 :=
  (s.readBelow 0x100000000 "u32").map UInt32.ofNat

def readOption {α : Type} (read : Scanned → Read α) : Scanned → Read (Option α)
  | .null => .ok none
  | other => (read other).map some

def readItems {α : Type} (read : Scanned → Read α) : List Scanned → Read (List α)
  | [] => .ok []
  | item :: rest => do
      let first ← read item
      let others ← readItems read rest
      return first :: others

def readList {α : Type} (read : Scanned → Read α) : Scanned → Read (List α)
  | .array items close => do
      let values ← readItems read items
      Read.unless? close
      return values
  | other => other.mismatch "a sequence"

def skip (s : Scanned) : Read Unit := Read.unless? s.skipFault?

/-- One of several words, or an object whose only field has the word as name and null as value. -/
def readWord {α : Type} (words : List (String × α)) : Scanned → Read α
  | .string (.ok word) => choose word
  | .object [(word, value)] _ => do
      let chosen ← choose word
      match value with
      | .null => return chosen
      | other => other.mismatch "unit"
  | .object _ _ => Read.problem (.wrongValue .object "map with a single key")
  | other => other.mismatch "string or map"
where
  choose (word : String) : Read α :=
    match words.lookup word with
    | some chosen => .ok chosen
    | none => Read.problem (.unknownVariant word (words.map (·.1)))

end Scanned

def fillOnce {α : Type} (name : String) (place : Option α) (read : Read α) : Read (Option α) :=
  match place with
  | some _ => Read.problem (.repeatedField name)
  | none => read.map some

def required {α : Type} (name : String) : Option α → Read α
  | some value => .ok value
  | none => Read.problem (.missingField name)

def foldFields {σ : Type} (step : σ → String → Scanned → Read σ) :
    σ → List (String × Scanned) → Read σ
  | state, [] => .ok state
  | state, (name, value) :: rest => do
      let next ← step state name value
      foldFields step next rest

/-- Items of a list that stands for a record, taken one after the other. -/
structure Items where
  taken : Nat
  rest : List Scanned
  close : Option Fault

namespace Items

def next? {α : Type} (items : Items) (read : Scanned → Read α) : Read (Option α × Items) :=
  match items.rest with
  | [] => do
      Read.unless? items.close
      return (none, items)
  | item :: rest => do
      let value ← read item
      return (some value, { items with taken := items.taken + 1, rest := rest })

def next {α : Type} (items : Items) (wanted : String) (read : Scanned → Read α) :
    Read (α × Items) := do
  let (value, rest) ← items.next? read
  match value with
  | some value => return (value, rest)
  | none => Read.problem (.wrongLength items.taken wanted)

/-- Nothing may be left over. What is left is a fault of a text and a problem of a value. -/
def finish (items : Items) (origin : Origin) : Read Unit :=
  match items.rest with
  | [] => Read.unless? items.close
  | left =>
      match origin with
      | .text => Read.fault .malformed
      | .value => Read.problem (.wrongLength (items.taken + left.length) "fewer elements in array")

end Items

/-- How a record is gathered: what is known before the first field, what a field adds, what the whole
is in the end, and the record as a list of its fields. -/
structure Record (σ α : Type) where
  wanted : String
  start : σ
  field : σ → String → Scanned → Read σ
  complete : σ → Read α
  ofItems : Items → Read (α × Items)

def Record.read {σ α : Type} (record : Record σ α) (origin : Origin) : Scanned → Read α
  | .object fields close => do
      let gathered ← foldFields record.field record.start fields
      Read.unless? close
      record.complete gathered
  | .array items close => do
      let (value, left) ← record.ofItems { taken := 0, rest := items, close := close }
      left.finish origin
      return value
  | other => other.mismatch record.wanted

end Json
end ActionAtlas
