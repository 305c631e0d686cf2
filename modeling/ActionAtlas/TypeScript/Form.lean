import ActionAtlas.Syntax.Builder

/-!
# Forms of a source

A form is a construct of the language with its parts in reading order. Most shapes matter only to the
grammar itself, which has to know what can be assigned to; a tree keeps the ones with a kind.
-/

namespace ActionAtlas.TypeScript

open Syntax (Kind Span Step)

inductive Shape where
  /-- An exported declaration is the declaration itself. -/
  | wrapper
  | plain
  | name
  | access
  | element
  | optionalChain
  | parenthesized
  /-- The operand comes first. -/
  | cast
  /-- The type comes first. -/
  | assertion
  | instantiation
  | call
  | array
  | object
  | entry
  | spread
  /-- A short entry with a default, which only a target may have. -/
  | entryDefault
  | assignment
  | text (value : String)
  | logical
  | coalesce
  | unary
  | construct
  | switch
  | decorator
  | typeReference
  | enumeration
  | classDefinition
  | property (hint : Option String)
  | method
  | constructor
  | accessor
  deriving DecidableEq, Repr

/-- The kind of the node that a construct becomes; none for a wrapper. -/
def Shape.kind? : Shape → Option Kind
  | .wrapper => none
  | .name => some .identifier
  | .access => some .propertyAccess
  | .construct => some .newExpression
  | .switch => some .switchStatement
  | .decorator => some .decorator
  | .typeReference => some .typeReference
  | .enumeration => some .enumDeclaration
  | .classDefinition => some .classDeclaration
  | .property _ => some .propertyDeclaration
  | .method => some .methodDeclaration
  | .constructor => some .constructor
  | .accessor => some .accessor
  | _ => some .other

def Shape.hint? : Shape → Option String
  | .property hint => hint
  | _ => none

inductive Form where
  | node (shape : Shape) (span : Span) (parts : List Form)

namespace Form

def shape : Form → Shape
  | node shape _ _ => shape

def span : Form → Span
  | node _ span _ => span

def parts : Form → List Form
  | node _ _ parts => parts

def stretch (stop : Nat) : Form → Form
  | node shape span parts => node shape ⟨span.start, stop⟩ parts

/-! ## What can be assigned to -/

mutual

def isPlace : Form → Bool
  | node .name _ _ | node .access _ _ | node .element _ _ => true
  | node .parenthesized _ parts | node .cast _ parts => firstIsPlace parts
  | node .assertion _ parts => lastIsPlace parts
  | _ => false

def firstIsPlace : List Form → Bool
  | [] => false
  | form :: _ => form.isPlace

def lastIsPlace : List Form → Bool
  | [] => false
  | [form] => form.isPlace
  | _ :: rest => lastIsPlace rest

end

mutual

/-- Whether a form can be taken apart into places. -/
def isTarget : Form → Bool
  | node .array _ parts | node .object _ parts => partsAreTargets parts
  | form => form.isPlace

def partsAreTargets : List Form → Bool
  | [] => true
  | node .assignment _ (left :: _) :: rest => left.isTarget && partsAreTargets rest
  | node .entryDefault _ _ :: rest | node .wrapper _ _ :: rest => partsAreTargets rest
  | node .spread _ parts :: rest => rest.isEmpty && partsAreTargets parts
  | node .entry _ parts :: rest => entryIsTarget parts && partsAreTargets rest
  | form :: rest => form.isTarget && partsAreTargets rest

def entryIsTarget : List Form → Bool
  | [] => false
  | [node .assignment _ (left :: _)] => left.isTarget
  | [value] => value.isTarget
  | _ :: rest => entryIsTarget rest

end

/-! ## Trees -/

/-- Steps written so far, the latest first, with the number of nodes and the span of the last name. -/
structure Written where
  steps : List Step := []
  count : Nat := 0
  lastName : Option Span := none

def Written.enter (written : Written) (kind : Kind) (span : Span) (hint : Option String) : Written :=
  let begun := Step.enter kind span :: written.steps
  { steps := match hint with
      | some text => .hint (written.count + 1) text :: begun
      | none => begun
    count := written.count + 1
    lastName := if kind = .identifier then some span else written.lastName }

def Written.leave (written : Written) : Written :=
  { written with steps := .leave :: written.steps }

mutual

/-- Write the steps of a form. A name that repeats the span of the name before it is left out: a short
entry names its key and its value at once. -/
def write : Form → Written → Written
  | node shape span parts, written =>
      match shape.kind? with
      | none => writeAll parts written
      | some kind =>
          if kind = .identifier ∧ written.lastName = some span then writeAll parts written
          else (writeAll parts (written.enter kind span shape.hint?)).leave

def writeAll : List Form → Written → Written
  | [], written => written
  | form :: rest, written => writeAll rest (form.write written)

end

def toSteps (form : Form) : List Step := (form.write {}).steps.reverse

end Form
end ActionAtlas.TypeScript
