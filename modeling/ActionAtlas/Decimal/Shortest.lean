/-!
# Shortest decimal text of a binary fraction

A double is written with the fewest digits that read back as the same double; of several such
decimals the one nearest to the double is taken. All arithmetic is on natural numbers, so nothing is
lost on the way.
-/

namespace ActionAtlas
namespace Decimal

/-- The magnitude `mantissa * 2 ^ exponent` of a double, with its sign. -/
structure Binary where
  negative : Bool
  mantissa : Nat
  exponent : Int
  /-- The neighbour below is only half as far away as the one above. -/
  narrowBelow : Bool
  deriving Repr

def Binary.ofBits (bits : UInt64) : Binary :=
  let all := bits.toNat
  let fraction : Nat := all % 0x10000000000000
  let biased : Nat := all / 0x10000000000000 % 0x800
  { negative := all / 0x8000000000000000 = 1
    mantissa := if biased = 0 then fraction else fraction + 0x10000000000000
    exponent := if biased = 0 then -1074 else (biased : Int) - 1075
    narrowBelow := fraction = 0 ∧ 1 < biased }

/-- The fraction `numerator / denominator`, with both made to hold a power of two. -/
def Binary.numerator (b : Binary) : Nat :=
  b.mantissa * Nat.pow 2 b.exponent.toNat

def Binary.denominator (b : Binary) : Nat :=
  Nat.pow 2 (-b.exponent).toNat

/-- Number of decimal digits; zero has one. -/
def digitCount (n : Nat) : Nat := (Nat.toDigits 10 n).length

/-- The `point` with `10 ^ (point - 1) ≤ value < 10 ^ point`, for a positive value. -/
def Binary.point (b : Binary) : Int :=
  let guess : Int := (digitCount b.numerator : Int) - digitCount b.denominator
  let reached :=
    if 0 ≤ guess then b.denominator * Nat.pow 10 guess.toNat ≤ b.numerator
    else b.denominator ≤ b.numerator * Nat.pow 10 (-guess).toNat
  if reached then guess + 1 else guess

/-- Digits read as one number, times a power of ten. -/
structure Scaled where
  digits : Nat
  power : Int
  deriving Repr

/-- Whether a decimal lies in the interval of reals that round to the double; the ends belong to it
when the mantissa is even. -/
def Binary.holds (b : Binary) (s : Scaled) : Bool :=
  let scale := b.denominator * Nat.pow 10 (-s.power).toNat
  let exact := 4 * b.numerator * Nat.pow 10 (-s.power).toNat
  let gap := Nat.pow 2 b.exponent.toNat * Nat.pow 10 (-s.power).toNat
  let given := 4 * s.digits * Nat.pow 10 s.power.toNat * scale / Nat.pow 10 (-s.power).toNat
  let low := exact - (if b.narrowBelow then gap else 2 * gap)
  let high := exact + 2 * gap
  if b.mantissa % 2 = 0 then decide (low ≤ given) && decide (given ≤ high)
  else decide (low < given) && decide (given < high)

/-- The decimal of `count` digits nearest to the double that reads back, if there is one. -/
def Binary.nearest? (b : Binary) (point : Int) (count : Nat) : Option Scaled :=
  let power := point - count
  let top := b.numerator * Nat.pow 10 (-power).toNat
  let unit := b.denominator * Nat.pow 10 power.toNat
  let below : Scaled := { digits := top / unit, power := power }
  let above : Scaled := { digits := top / unit + 1, power := power }
  let remainder := top % unit
  let closerBelow := decide (2 * remainder < unit) ||
    (decide (2 * remainder = unit) && below.digits % 2 == 0)
  match b.holds below, b.holds above with
  | true, true => some (if closerBelow then below else above)
  | true, false => some below
  | false, true => some above
  | false, false => none

/-- The first digit count at which some decimal reads back; seventeen digits always suffice. -/
def Binary.shortest (b : Binary) : Scaled :=
  let point := b.point
  ((List.range 17).findSome? fun n => b.nearest? point (n + 1)).getD { digits := 0, power := 0 }

def trimZeros (digits : List Char) : List Char :=
  (digits.reverse.dropWhile (· == '0')).reverse

/-- Write digits with the decimal point after `point` of them. Up to sixteen digits before the point
and up to four zeros behind it are written out; beyond that an exponent with its sign is used. -/
def layout (digits : List Char) (point : Int) : String :=
  let zeros (n : Int) : List Char := List.replicate n.toNat '0'
  if 0 < point ∧ point ≤ 16 then
    if (digits.length : Int) ≤ point then
      String.ofList (digits ++ zeros (point - digits.length)) ++ ".0"
    else
      String.ofList (digits.take point.toNat) ++ "." ++ String.ofList (digits.drop point.toNat)
  else if -5 < point ∧ point ≤ 0 then
    "0." ++ String.ofList (zeros (-point) ++ digits)
  else
    let power := point - 1
    let mark := if power < 0 then "e-" else "e+"
    let fraction := if digits.length ≤ 1 then [] else '.' :: digits.drop 1
    String.ofList (digits.take 1 ++ fraction) ++ mark ++ toString power.natAbs

def text (bits : UInt64) : String :=
  let b := Binary.ofBits bits
  let sign := if b.negative then "-" else ""
  if b.mantissa = 0 then sign ++ "0.0"
  else
    let s := b.shortest
    let digits := Nat.toDigits 10 s.digits
    sign ++ layout (trimZeros digits) (s.power + digits.length)

end Decimal
end ActionAtlas
