import ActionAtlas.Text.Category

/-!
# Characters of TypeScript sources

Which characters separate tokens, end lines and make up names.
-/

namespace ActionAtlas.TypeScript

def isLineEnd (c : Char) : Bool :=
  c == '\n' || c == '\r' || c.toNat == 0x2028 || c.toNat == 0x2029

def isSpace (c : Char) : Bool :=
  if c.toNat < 128 then c == ' ' || c == '\t' || c.toNat == 11 || c.toNat == 12
  else c.toNat == 0xFEFF || categoryOf c == .space

/-- Letters in the wide sense that names may begin with, beyond the categories of letters. -/
def isOtherNameStart (point : Nat) : Bool :=
  point == 0x1885 || point == 0x1886 || point == 0x2118 || point == 0x212E || point == 0x309B ||
    point == 0x309C

/-- Characters that names may go on with, beyond the categories of marks, digits and connectors. -/
def isOtherNamePart (point : Nat) : Bool :=
  point == 0xB7 || point == 0x387 || (0x1369 ≤ point && point ≤ 0x1371) || point == 0x19DA ||
    point == 0x200C || point == 0x200D || point == 0x30FB || point == 0xFF65

def isNameStart (c : Char) : Bool :=
  if c.toNat < 128 then c.isAlpha || c == '$' || c == '_'
  else
    isOtherNameStart c.toNat ||
      (c.toNat != 0x2E2F &&
        match categoryOf c with
        | .upperLetter | .lowerLetter | .titleLetter | .modifierLetter | .otherLetter | .letterNumber =>
            true
        | _ => false)

def isNamePart (c : Char) : Bool :=
  if c.toNat < 128 then c.isAlphanum || c == '$' || c == '_'
  else
    isNameStart c || isOtherNamePart c.toNat ||
      match categoryOf c with
      | .plainMark | .spacingMark | .decimalDigit | .connector => true
      | _ => false

def hexValue? (c : Char) : Option Nat :=
  if '0' ≤ c ∧ c ≤ '9' then some (c.toNat - '0'.toNat)
  else if 'a' ≤ c ∧ c ≤ 'f' then some (c.toNat - 'a'.toNat + 10)
  else if 'A' ≤ c ∧ c ≤ 'F' then some (c.toNat - 'A'.toNat + 10)
  else none

end ActionAtlas.TypeScript
