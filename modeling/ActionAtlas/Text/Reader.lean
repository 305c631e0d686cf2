/-!
# Reading characters

A reader takes characters from the front of a text and either fails or gives a result and the rest.
-/

namespace ActionAtlas

abbrev Reader (α : Type) := StateT (List Char) Option α

namespace Reader

def next : Reader Char := do
  match ← get with
  | [] => failure
  | c :: rest =>
      set rest
      return c

def peek? : Reader (Option Char) := return (← get).head?

def expect (c : Char) : Reader Unit := do
  if (← next) = c then return () else failure

def take? (c : Char) : Reader Bool := do
  match ← get with
  | d :: rest =>
      if d = c then
        set rest
        return true
      else return false
  | [] => return false

def takeWhile (test : Char → Bool) : Reader (List Char) := do
  let text ← get
  set (text.dropWhile test)
  return text.takeWhile test

def skipWhile (test : Char → Bool) : Reader Unit := modify (·.dropWhile test)

/-- More steps than a reader can take that uses up a character in each. -/
def steps : Reader Nat := return (← get).length + 1

def atEnd : Reader Bool := return (← get).isEmpty

def whole? {α : Type} (reader : Reader α) (text : List Char) : Option α :=
  match reader.run text with
  | some (value, []) => some value
  | _ => none

def hexNumber (digit? : Char → Option Nat) : Nat → Nat → Reader Nat
  | 0, number => return number
  | count + 1, number => do
      match digit? (← next) with
      | some digit => hexNumber digit? count (number * 16 + digit)
      | none => failure

def ofCodePoint (point : Nat) : Reader Char :=
  if point.isValidChar then return Char.ofNat point else failure

end Reader
end ActionAtlas
