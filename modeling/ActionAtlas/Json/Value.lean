/-!
# JSON values

Numbers are kept as integers where the text has one that fits a machine word, and as the bits of a
double otherwise.
-/

namespace ActionAtlas
namespace Json

/-- A number as it is read: an integer from `-2 ^ 63` up to `2 ^ 64`, or a double. -/
inductive Number where
  | int (value : Int)
  | real (bits : UInt64)
  deriving DecidableEq, Repr

inductive Value where
  | null
  | bool (value : Bool)
  | num (value : Number)
  | str (value : String)
  | arr (items : List Value)
  | obj (fields : List (String × Value))
  deriving Inhabited

namespace Value

def int (n : Int) : Value := .num (.int n)

def nat (n : Nat) : Value := .num (.int n)

def field? (value : Value) (name : String) : Option Value :=
  match value with
  | .obj fields => fields.lookup name
  | _ => none

def orNull : Option Value → Value
  | some value => value
  | none => .null

def strings (texts : List String) : Value := .arr (texts.map .str)

end Value

/-- Put a field into a list that is sorted by name; a field of that name is replaced. -/
def insertField (name : String) (value : Value) :
    List (String × Value) → List (String × Value)
  | [] => [(name, value)]
  | (other, old) :: rest =>
      if name = other then (name, value) :: rest
      else if name < other then (name, value) :: (other, old) :: rest
      else (other, old) :: insertField name value rest

end Json
end ActionAtlas
