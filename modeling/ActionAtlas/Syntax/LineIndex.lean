/-!
# Lines of a text

Lines are counted from one and end after a newline byte. An index of the offsets at which lines start
answers which line an offset lies on. Offsets and lines are kept in 32 bits.
-/

namespace ActionAtlas.Syntax

/-- Offsets just after the newlines of `bytes`, of which the first byte stands at `offset`. -/
def startsAfterNewlines (offset : Nat) : List UInt8 → List UInt32
  | [] => []
  | byte :: rest =>
      if byte = 10 then UInt32.ofNat (offset + 1) :: startsAfterNewlines (offset + 1) rest
      else startsAfterNewlines (offset + 1) rest

/-- The offsets at which the lines of a text start, in increasing order. -/
structure LineIndex where
  starts : Array UInt32

namespace LineIndex

def ofText (source : String) : LineIndex where
  starts := (0 :: startsAfterNewlines 0 source.toUTF8.data.toList).toArray

/-- What a search in a table ends with: the position of the offset, or the one where it could be put in. -/
inductive Spot where
  | taken (position : Nat)
  | free (position : Nat)
  deriving DecidableEq, Repr

/-- Search for an offset at the positions of `[low, high)`, by halving. -/
def search (starts : Array UInt32) (offset low high : Nat) : Spot :=
  if low < high then
    let middle := low + (high - low) / 2
    let start := (starts[middle]?.getD 0).toNat
    if start = offset then .taken middle
    else if start < offset then search starts offset (middle + 1) high
    else search starts offset low middle
  else .free low
termination_by high - low

/-- The position of the line that an offset lies on: the line that starts there, or else the last one that
starts before. -/
def Spot.linePosition : Spot → Nat
  | .taken position => position
  | .free position => position - 1

/-- The line of the byte at `offset`; offsets past the end lie on the last line. -/
def lineOf (index : LineIndex) (offset : Nat) : UInt32 :=
  UInt32.ofNat ((search index.starts offset 0 index.starts.size).linePosition + 1)

end LineIndex
end ActionAtlas.Syntax
