import ActionAtlas.Json.Value

/-!
# JSON text as it is met

Scanning a text gives a tree that keeps what a reader meets in the order in which it stands there,
faults included: a list may end in a fault, and a text or number may turn out to be unusable only when
it is wanted. A typed reader over this tree reports the first problem in the order of the text.
-/

namespace ActionAtlas
namespace Json

/-- Why a text is not JSON: it ends too early, or something stands where it cannot. -/
inductive Fault where
  | truncated
  | malformed
  deriving DecidableEq, Repr

inductive Scanned where
  | null
  | bool (value : Bool)
  | number (value : Except Fault Number)
  | string (value : Except Fault String)
  | array (items : List Scanned) (close : Option Fault)
  | object (fields : List (String × Scanned)) (close : Option Fault)
  | broken (fault : Fault)

namespace Scanned

/-! ## Blanks and words -/

def isBlank (c : Char) : Bool :=
  c == ' ' || c == '\n' || c == '\t' || c == '\r'

def skipBlanks (text : List Char) : List Char := text.dropWhile isBlank

/-- Read the rest of a word whose first letter selected it. -/
def word (value : Scanned) : List Char → List Char → Scanned × Option (List Char)
  | [], rest => (value, some rest)
  | _ :: _, [] => (.broken .truncated, none)
  | expected :: more, c :: rest =>
      if c = expected then word value more rest else (.broken .malformed, none)

/-! ## Numbers -/

def isDigit (c : Char) : Bool := '0' ≤ c && c ≤ '9'

def digitValue (c : Char) : Nat := c.toNat - '0'.toNat

/-- The largest number that the digits of a number are gathered in. -/
def wordLimit : Nat := 0x10000000000000000

/-- Digits gathered before the point. Digits that no longer fit only raise the power of ten. -/
def gatherWhole : List Char → Nat → Int → Bool → Nat × Int × Bool
  | [], digits, power, full => (digits, power, full)
  | c :: rest, digits, power, full =>
      let next := digits * 10 + digitValue c
      if full || wordLimit ≤ next then gatherWhole rest digits (power + 1) true
      else gatherWhole rest next power false

def gatherFraction : List Char → Nat → Int → Nat × Int
  | [], digits, power => (digits, power)
  | c :: rest, digits, power =>
      let next := digits * 10 + digitValue c
      if wordLimit ≤ next then (digits, power) else gatherFraction rest next (power - 1)

/-- A double times a power of ten, one table step at a time; none when it grows too large. -/
def scale : Nat → Float → Int → Option Float
  | 0, value, _ => some value
  | fuel + 1, value, power =>
      if power.natAbs ≤ 308 then
        if 0 ≤ power then
          let scaled := value * Float.ofScientific 1 false power.natAbs
          if scaled.isInf then none else some scaled
        else some (value / Float.ofScientific 1 false power.natAbs)
      else if value == 0.0 then some value
      else if 0 ≤ power then none
      else scale fuel (value / 1e308) (power + 308)

/-- The double for gathered digits and a power of ten. Four steps reach every power that matters,
because the digits fit a machine word. -/
def real (negative : Bool) (digits : Nat) (power : Int) : Except Fault Number :=
  match scale 4 (UInt64.toFloat (UInt64.ofNat digits)) power with
  | some value => .ok (.real (if negative then -value else value).toBits)
  | none => .error .malformed

/-- A number without point and exponent. Negative zero and what no machine word holds are doubles. -/
def whole (negative : Bool) (digits : List Char) : Except Fault Number :=
  let value := digits.foldl (fun n c => n * 10 + digitValue c) 0
  if negative then
    if 0 < value ∧ value ≤ 0x8000000000000000 then .ok (.int (-(value : Int)))
    else
      let (gathered, power, _) := gatherWhole digits 0 0 false
      real true gathered power
  else if value < wordLimit then .ok (.int value)
  else
    let (gathered, power, _) := gatherWhole digits 0 0 false
    real false gathered power

/-- A number with a point or an exponent. An exponent too large to count is an error unless the
number is zero or the exponent negative. -/
def fractional (negative : Bool) (digits fraction : List Char) (negativePower : Bool)
    (powerDigits : List Char) : Except Fault Number :=
  let (gathered, start, _) := gatherWhole digits 0 0 false
  let (gathered, start) := gatherFraction fraction gathered start
  let power := powerDigits.foldl (fun n c => n * 10 + digitValue c) 0
  if 0x80000000 ≤ power then
    if gathered ≠ 0 ∧ !negativePower then .error .malformed
    else .ok (.real (if negative then (-0.0 : Float) else 0.0).toBits)
  else real negative gathered (if negativePower then start - power else start + power)

def exponent? (text : List Char) : Except Fault (Bool × List Char × List Char) :=
  let signed (rest : List Char) : Bool × List Char :=
    match rest with
    | '+' :: more => (false, more)
    | '-' :: more => (true, more)
    | _ => (false, rest)
  let (negative, rest) := signed text
  match rest with
  | [] => .error .truncated
  | c :: _ =>
      if isDigit c then .ok (negative, rest.takeWhile isDigit, rest.dropWhile isDigit)
      else .error .malformed

def numberTail (negative : Bool) (digits rest : List Char) : Scanned × Option (List Char) :=
  let withExponent (fraction rest : List Char) : Scanned × Option (List Char) :=
    match exponent? rest with
    | .ok (negativePower, powerDigits, rest) =>
        (.number (fractional negative digits fraction negativePower powerDigits), some rest)
    | .error fault => (.broken fault, none)
  match rest with
  | '.' :: rest =>
      let fraction := rest.takeWhile isDigit
      let after := rest.dropWhile isDigit
      if fraction.isEmpty then
        (.broken (if after.isEmpty then .truncated else .malformed), none)
      else
        match after with
        | 'e' :: more | 'E' :: more => withExponent fraction more
        | _ => (.number (fractional negative digits fraction false []), some after)
  | 'e' :: more | 'E' :: more => withExponent [] more
  | _ => (.number (whole negative digits), some rest)

def signedNumber (negative : Bool) (text : List Char) : Scanned × Option (List Char) :=
  match text with
  | [] => (.broken .truncated, none)
  | '0' :: rest =>
      match rest with
      | c :: _ => if isDigit c then (.broken .malformed, none) else numberTail negative ['0'] rest
      | [] => numberTail negative ['0'] rest
  | c :: _ =>
      if isDigit c then
        numberTail negative (text.takeWhile isDigit) (text.dropWhile isDigit)
      else (.broken .malformed, none)

/-! ## Texts -/

def hexValue? (c : Char) : Option Nat :=
  if '0' ≤ c && c ≤ '9' then some (c.toNat - '0'.toNat)
  else if 'a' ≤ c && c ≤ 'f' then some (c.toNat - 'a'.toNat + 10)
  else if 'A' ≤ c && c ≤ 'F' then some (c.toNat - 'A'.toNat + 10)
  else none

/-- Four hexadecimal digits. A text that ends within them is truncated. -/
def hexFour (text : List Char) : Except Fault (Nat × List Char) :=
  match text with
  | a :: b :: c :: d :: rest =>
      match hexValue? a, hexValue? b, hexValue? c, hexValue? d with
      | some a, some b, some c, some d => .ok (((a * 16 + b) * 16 + c) * 16 + d, rest)
      | _, _, _, _ => .error .malformed
  | _ =>
      if text.foldl (fun bytes c => bytes + c.utf8Size) 0 < 4 then .error .truncated else .error .malformed

def isHighSurrogate (unit : Nat) : Bool := 0xD800 ≤ unit && unit ≤ 0xDBFF

def isLowSurrogate (unit : Nat) : Bool := 0xDC00 ≤ unit && unit ≤ 0xDFFF

def pairChar (high low : Nat) : Char :=
  Char.ofNat (0x10000 + (high - 0xD800) * 0x400 + (low - 0xDC00))

def simpleEscape? : Char → Option Char
  | '"' => some '"'
  | '\\' => some '\\'
  | '/' => some '/'
  | 'b' => some (Char.ofNat 8)
  | 'f' => some (Char.ofNat 12)
  | 'n' => some '\n'
  | 'r' => some '\r'
  | 't' => some '\t'
  | _ => none

/-- What a text has given so far: its characters in reverse, or the fault that makes it unusable. -/
abbrev Gathered := Except Fault (List Char)

def Gathered.push (gathered : Gathered) (c : Char) : Gathered := gathered.map (c :: ·)

def Gathered.spoil (gathered : Gathered) : Gathered :=
  match gathered with
  | .ok _ => .error .malformed
  | .error fault => .error fault

/-- The rest of a text after its opening quote: the characters and what follows the closing quote. An
escaped half of a pair of units spoils the characters but not the scan. The first argument bounds the
number of steps and is never reached when it is the length of the text. -/
def textBody : Nat → List Char → Gathered → Except Fault (Gathered × List Char)
  | 0, _, _ => .error .truncated
  | fuel + 1, text, gathered =>
      match text with
      | [] => .error .truncated
      | '"' :: rest => .ok (gathered, rest)
      | '\\' :: 'u' :: rest =>
          match hexFour rest with
          | .error fault => .error fault
          | .ok (unit, rest) =>
              if isLowSurrogate unit then textBody fuel rest gathered.spoil
              else if isHighSurrogate unit then
                match rest with
                | '\\' :: 'u' :: more =>
                    match hexFour more with
                    | .error fault => .error fault
                    | .ok (low, after) =>
                        if isLowSurrogate low then
                          textBody fuel after (gathered.push (pairChar unit low))
                        else textBody fuel after gathered.spoil
                | _ => textBody fuel rest gathered.spoil
              else textBody fuel rest (gathered.push (Char.ofNat unit))
      | '\\' :: c :: rest =>
          match simpleEscape? c with
          | some plain => textBody fuel rest (gathered.push plain)
          | none => .error .malformed
      | ['\\'] => .error .truncated
      | c :: rest =>
          if c.toNat < 32 then .error .malformed else textBody fuel rest (gathered.push c)

def text (input : List Char) : Except Fault (Except Fault String × List Char) :=
  (textBody (input.length + 1) input (.ok [])).map fun (gathered, rest) =>
    (gathered.map (String.ofList ·.reverse), rest)

/-! ## Values -/

mutual

/-- Scan one value. Without a rest, the scan has met a fault and nothing behind it is known. The
first argument bounds the number of steps. -/
def value : Nat → List Char → Scanned × Option (List Char)
  | 0, _ => (.broken .truncated, none)
  | fuel + 1, input =>
      match skipBlanks input with
      | [] => (.broken .truncated, none)
      | 'n' :: rest => word .null "ull".toList rest
      | 't' :: rest => word (.bool true) "rue".toList rest
      | 'f' :: rest => word (.bool false) "alse".toList rest
      | '"' :: rest =>
          match text rest with
          | .ok (characters, rest) => (.string characters, some rest)
          | .error fault => (.broken fault, none)
      | '[' :: rest =>
          let (items, close, rest) := firstItem fuel rest
          (.array items close, rest)
      | '\x7b' :: rest =>
          let (fields, close, rest) := firstField fuel rest
          (.object fields close, rest)
      | '-' :: rest => signedNumber true rest
      | c :: rest => if isDigit c then signedNumber false (c :: rest) else (.broken .malformed, none)

def firstItem : Nat → List Char → List Scanned × Option Fault × Option (List Char)
  | 0, _ => ([], some .truncated, none)
  | fuel + 1, input =>
      match skipBlanks input with
      | [] => ([], some .truncated, none)
      | ']' :: rest => ([], none, some rest)
      | rest => itemAndMore fuel rest

def itemAndMore : Nat → List Char → List Scanned × Option Fault × Option (List Char)
  | 0, _ => ([], some .truncated, none)
  | fuel + 1, input =>
      match value fuel input with
      | (item, none) => ([item], none, none)
      | (item, some rest) =>
          match skipBlanks rest with
          | [] => ([item], some .truncated, none)
          | ']' :: rest => ([item], none, some rest)
          | ',' :: rest =>
              match skipBlanks rest with
              | [] => ([item, .broken .truncated], none, none)
              | ']' :: _ => ([item, .broken .malformed], none, none)
              | rest =>
                  let (items, close, rest) := itemAndMore fuel rest
                  (item :: items, close, rest)
          | _ => ([item], some .malformed, none)

def firstField : Nat → List Char → List (String × Scanned) × Option Fault × Option (List Char)
  | 0, _ => ([], some .truncated, none)
  | fuel + 1, input =>
      match skipBlanks input with
      | [] => ([], some .truncated, none)
      | '\x7d' :: rest => ([], none, some rest)
      | '"' :: rest => fieldAndMore fuel rest
      | _ => ([], some .malformed, none)

def fieldAndMore : Nat → List Char → List (String × Scanned) × Option Fault × Option (List Char)
  | 0, _ => ([], some .truncated, none)
  | fuel + 1, input =>
      match text input with
      | .error fault => ([], some fault, none)
      | .ok (.error fault, _) => ([], some fault, none)
      | .ok (.ok name, rest) =>
          match skipBlanks rest with
          | [] => ([(name, .broken .truncated)], none, none)
          | ':' :: rest =>
              match value fuel rest with
              | (item, none) => ([(name, item)], none, none)
              | (item, some rest) =>
                  match skipBlanks rest with
                  | [] => ([(name, item)], some .truncated, none)
                  | '\x7d' :: rest => ([(name, item)], none, some rest)
                  | ',' :: rest =>
                      match skipBlanks rest with
                      | [] => ([(name, item)], some .truncated, none)
                      | '"' :: rest =>
                          let (fields, close, rest) := fieldAndMore fuel rest
                          ((name, item) :: fields, close, rest)
                      | _ => ([(name, item)], some .malformed, none)
                  | _ => ([(name, item)], some .malformed, none)
          | _ => ([(name, .broken .malformed)], none, none)

end

/-- Scan a whole text: the value, and the fault that stands behind it, if any. No more than three
steps pass from one character to the next, so the bound on the steps is not reached. -/
def ofText (input : String) : Scanned × Option Fault :=
  let characters := input.toList
  match value (3 * characters.length + 1) characters with
  | (scanned, none) => (scanned, none)
  | (scanned, some rest) =>
      (scanned, if (skipBlanks rest).isEmpty then none else some .malformed)

/-! ## Faults of a tree -/

def nestingLimit : Nat := 127

mutual

def skipFault? : Scanned → Option Fault
  | .array items close => (skipFaultItems? items).or close
  | .object fields close => (skipFaultFields? fields).or close
  | .broken fault => some fault
  | .null | .bool _ | .number _ | .string _ => none

def skipFaultItems? : List Scanned → Option Fault
  | [] => none
  | item :: rest => (skipFault? item).or (skipFaultItems? rest)

def skipFaultFields? : List (String × Scanned) → Option Fault
  | [] => none
  | (_, item) :: rest => (skipFault? item).or (skipFaultFields? rest)

end

mutual

/-- The value of a tree, `level` lists and objects deep. Fields are sorted by name, and of equal
names the last one stays. -/
def build (level : Nat) : Scanned → Except Fault Value
  | .null => .ok .null
  | .bool value => .ok (.bool value)
  | .number value => value.map .num
  | .string value => value.map .str
  | .array items close =>
      if nestingLimit ≤ level then .error .malformed
      else
        match buildItems (level + 1) items, close with
        | .error fault, _ => .error fault
        | .ok _, some fault => .error fault
        | .ok built, none => .ok (.arr built)
  | .object fields close =>
      if nestingLimit ≤ level then .error .malformed
      else
        match buildFields (level + 1) fields [], close with
        | .error fault, _ => .error fault
        | .ok _, some fault => .error fault
        | .ok built, none => .ok (.obj built)
  | .broken fault => .error fault

def buildItems (level : Nat) : List Scanned → Except Fault (List Value)
  | [] => .ok []
  | item :: rest =>
      match build level item with
      | .error fault => .error fault
      | .ok built => (buildItems level rest).map (built :: ·)

def buildFields (level : Nat) :
    List (String × Scanned) → List (String × Value) → Except Fault (List (String × Value))
  | [], done => .ok done
  | (name, item) :: rest, done =>
      match build level item with
      | .error fault => .error fault
      | .ok built => buildFields level rest (insertField name built done)

end

mutual

def ofValue : Value → Scanned
  | .null => .null
  | .bool value => .bool value
  | .num value => .number (.ok value)
  | .str value => .string (.ok value)
  | .arr items => .array (ofItems items) none
  | .obj fields => .object (ofFields fields) none

def ofItems : List Value → List Scanned
  | [] => []
  | item :: rest => ofValue item :: ofItems rest

def ofFields : List (String × Value) → List (String × Scanned)
  | [] => []
  | (name, item) :: rest => (name, ofValue item) :: ofFields rest

end

end Scanned

def Value.ofText (input : String) : Except Fault Value :=
  let (scanned, behind) := Scanned.ofText input
  match Scanned.build 0 scanned, behind with
  | .error fault, _ => .error fault
  | .ok _, some fault => .error fault
  | .ok value, none => .ok value

end Json
end ActionAtlas
