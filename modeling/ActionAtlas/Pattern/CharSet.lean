import ActionAtlas.Text.Blank
import ActionAtlas.Text.CaseFold
import ActionAtlas.Text.Category
import ActionAtlas.Text.Script

/-!
# Sets of characters

The sets that a pattern can name, and whether a code point belongs to one.
-/

namespace ActionAtlas.Pattern

/-- A set of characters. `folded` holds every character that differs from a member only by case. -/
inductive CharSet where
  | all
  | range (first last : Nat)
  | table (ranges : List (Nat × Nat))
  | categories (members : List Category)
  | blank
  | union (left right : CharSet)
  | meet (left right : CharSet)
  | complement (set : CharSet)
  | folded (set : CharSet)

namespace CharSet

def holds : CharSet → Nat → Bool
  | .all, _ => true
  | .range first last, point => first ≤ point && point ≤ last
  | .table ranges, point => ranges.any fun (first, last) => first ≤ point && point ≤ last
  | .categories members, point => members.contains (categoryOf (Char.ofNat point))
  | .blank, point => isBlank (Char.ofNat point)
  | .union left right, point => left.holds point || right.holds point
  | .meet left right, point => left.holds point && right.holds point
  | .complement set, point => !set.holds point
  | .folded set, point => (CaseFold.orbit point).any set.holds

def empty : CharSet := .table []

def char (c : Char) : CharSet := .range c.toNat c.toNat

def difference (left right : CharSet) : CharSet := .meet left (.complement right)

def symmetricDifference (left right : CharSet) : CharSet :=
  .union (difference left right) (difference right left)

/-! ## Named sets -/

def ascii : CharSet := .range 0 127

def digit : CharSet := .categories [.decimalDigit]

def asciiDigit : CharSet := .range 48 57

def asciiBlank : CharSet := .table [(9, 13), (32, 32)]

def asciiWord : CharSet := .table [(48, 57), (65, 90), (95, 95), (97, 122)]

/-- Letters and what counts as one: letters of numerals and letters in circles and squares. -/
def alphabetic : CharSet :=
  .union
    (.categories [.upperLetter, .lowerLetter, .titleLetter, .modifierLetter, .otherLetter, .letterNumber])
    (.table [(0x24B6, 0x24E9), (0x1F130, 0x1F149), (0x1F150, 0x1F169), (0x1F170, 0x1F189)])

/-- Characters of words: letters, marks, digits, connectors and joiners. -/
def word : CharSet :=
  .union alphabetic
    (.union (.categories [.plainMark, .spacingMark, .enclosingMark, .decimalDigit, .connector])
      (.range 0x200C 0x200D))

def uppercase : CharSet :=
  .union (.categories [.upperLetter])
    (.table [(0x2160, 0x216F), (0x24B6, 0x24CF), (0x1F130, 0x1F149), (0x1F150, 0x1F169),
      (0x1F170, 0x1F189)])

def lowercase : CharSet :=
  .union (.categories [.lowerLetter])
    (.table [(0xAA, 0xAA), (0xBA, 0xBA), (0x2B0, 0x2B8), (0x2C0, 0x2C1), (0x2E0, 0x2E4), (0x345, 0x345),
      (0x37A, 0x37A), (0x10FC, 0x10FC), (0x1D2C, 0x1D6A), (0x1D78, 0x1D78), (0x1D9B, 0x1DBF),
      (0x2071, 0x2071), (0x207F, 0x207F), (0x2090, 0x209C), (0x2170, 0x217F), (0x24D0, 0x24E9),
      (0x2C7C, 0x2C7D), (0xA69C, 0xA69D), (0xA770, 0xA770), (0xA7F2, 0xA7F4), (0xA7F8, 0xA7F9),
      (0xAB5C, 0xAB5F), (0xAB69, 0xAB69), (0x10780, 0x10780), (0x10783, 0x10785), (0x10787, 0x107B0),
      (0x107B2, 0x107BA), (0x1E030, 0x1E06D)])

def ofBracketName? : String → Option CharSet
  | "alnum" => some (.table [(48, 57), (65, 90), (97, 122)])
  | "alpha" => some (.table [(65, 90), (97, 122)])
  | "ascii" => some ascii
  | "blank" => some (.table [(9, 9), (32, 32)])
  | "cntrl" => some (.table [(0, 31), (127, 127)])
  | "digit" => some asciiDigit
  | "graph" => some (.range 33 126)
  | "lower" => some (.range 97 122)
  | "print" => some (.range 32 126)
  | "punct" => some (.table [(33, 47), (58, 64), (91, 96), (123, 126)])
  | "space" => some asciiBlank
  | "upper" => some (.range 65 90)
  | "word" => some asciiWord
  | "xdigit" => some (.table [(48, 57), (65, 70), (97, 102)])
  | _ => none

/-- The general categories under their names in small letters, groups of them included. -/
def categoryNames : List (List String × List Category) :=
  [(["l", "letter"], [.upperLetter, .lowerLetter, .titleLetter, .modifierLetter, .otherLetter]),
    (["lc", "casedletter"], [.upperLetter, .lowerLetter, .titleLetter]),
    (["lu", "uppercaseletter"], [.upperLetter]),
    (["ll", "lowercaseletter"], [.lowerLetter]),
    (["lt", "titlecaseletter"], [.titleLetter]),
    (["lm", "modifierletter"], [.modifierLetter]),
    (["lo", "otherletter"], [.otherLetter]),
    (["m", "mark", "combiningmark"], [.plainMark, .spacingMark, .enclosingMark]),
    (["mn", "nonspacingmark"], [.plainMark]),
    (["mc", "spacingmark"], [.spacingMark]),
    (["me", "enclosingmark"], [.enclosingMark]),
    (["n", "number"], [.decimalDigit, .letterNumber, .otherNumber]),
    (["nd", "decimalnumber", "digit"], [.decimalDigit]),
    (["nl", "letternumber"], [.letterNumber]),
    (["no", "othernumber"], [.otherNumber]),
    (["p", "punctuation", "punct"],
      [.connector, .dash, .opening, .closing, .initialQuote, .finalQuote, .otherPunctuation]),
    (["pc", "connectorpunctuation"], [.connector]),
    (["pd", "dashpunctuation"], [.dash]),
    (["ps", "openpunctuation"], [.opening]),
    (["pe", "closepunctuation"], [.closing]),
    (["pi", "initialpunctuation"], [.initialQuote]),
    (["pf", "finalpunctuation"], [.finalQuote]),
    (["po", "otherpunctuation"], [.otherPunctuation]),
    (["s", "symbol"], [.mathSymbol, .currencySymbol, .modifierSymbol, .otherSymbol]),
    (["sm", "mathsymbol"], [.mathSymbol]),
    (["sc", "currencysymbol"], [.currencySymbol]),
    (["sk", "modifiersymbol"], [.modifierSymbol]),
    (["so", "othersymbol"], [.otherSymbol]),
    (["z", "separator"], [.space, .lineSeparator, .paragraphSeparator]),
    (["zs", "spaceseparator"], [.space]),
    (["zl", "lineseparator"], [.lineSeparator]),
    (["zp", "paragraphseparator"], [.paragraphSeparator]),
    (["c", "other"], [.control, .format, .surrogate, .privateUse, .unassigned]),
    (["cc", "control", "cntrl"], [.control]),
    (["cf", "format"], [.format]),
    (["co", "privateuse"], [.privateUse]),
    (["cn", "unassigned"], [.unassigned]),
    (["cs", "surrogate"], [.surrogate])]

def ofCategory? (name : String) : Option CharSet :=
  match name with
  | "any" => some .all
  | "assigned" => some (.complement (.categories [.unassigned]))
  | "ascii" => some ascii
  | _ => (categoryNames.find? (·.1.contains name)).map fun entry => .categories entry.2

def ofScript? (name : String) : Option CharSet :=
  (Script.ofName? name).map fun script => .table script.ranges

/-- The set of a property that a character has or has not. These five are known; any other one, such as
`emoji`, is refused like a name that means nothing. -/
def ofProperty? : String → Option CharSet
  | "alphabetic" | "alpha" => some alphabetic
  | "uppercase" | "upper" => some uppercase
  | "lowercase" | "lower" => some lowercase
  | "whitespace" | "wspace" | "space" => some .blank
  | "asciihexdigit" | "ahex" => some (.table [(48, 57), (65, 70), (97, 102)])
  | _ => none

/-- The name of a set as names are compared: without spaces, dashes and underscores, in small letters,
and without a leading `is`. -/
def plainName (name : List Char) : String :=
  let kept := (name.filter fun c => !(c == ' ' || c == '_' || c == '-')).map Char.toLower
  String.ofList (match kept with
    | 'i' :: 's' :: rest => if rest == ['c'] then kept else rest
    | _ => kept)

def ofName? (name : String) : Option CharSet :=
  let ambiguous := name == "cf" || name == "sc" || name == "lc"
  (if ambiguous then none else ofProperty? name).or ((ofCategory? name).or (ofScript? name))

def ofNameValue? (name value : String) : Option CharSet :=
  match name with
  | "gc" | "generalcategory" => ofCategory? value
  | "sc" | "script" | "scx" | "scriptextensions" => ofScript? value
  | _ => none

end CharSet
end ActionAtlas.Pattern
